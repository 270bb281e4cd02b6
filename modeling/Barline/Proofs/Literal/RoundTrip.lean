import Barline.Literal
import Barline.Proofs.Numeral.Digits

/-!
# Literals — rational numbers read back

A rational number is displayed as a whole number or as a quotient in lowest terms. `parse_display` says that the
text denotes the number itself, and `read_display` that it is read within the limit on digit groups too, if it can
be written at all.
-/

namespace Barline.Literal

open Numeral

/-- The characters of a displayed number. -/
def displayChars (q : Rat) : List Char :=
  if q.den = 1 then wholeChars q.num else wholeChars q.num ++ '/' :: Nat.toDigits 10 q.den

theorem toList_display (q : Rat) : (display q).toList = displayChars q := by
  unfold display displayChars
  split
  · exact toList_toString q.num
  · rw [String.toList_append, String.toList_append, toList_toString]
    simp [Nat.toString_eq_repr, Nat.toList_repr]

/-! ## Blanks -/

theorem trimBoth_eq_self {α : Type} {p : α → Bool} {xs : List α} (h : ∀ x ∈ xs, p x = false) :
    Text.trimBoth p xs = xs := by
  have hdrop : ∀ ys : List α, (∀ y ∈ ys, p y = false) → ys.dropWhile p = ys := by
    intro ys hys
    cases ys with
    | nil => rfl
    | cons y ys => simp [List.dropWhile, hys y (List.mem_cons_self ..)]
  rw [Text.trimBoth, hdrop xs h, hdrop _ (by simpa using h), List.reverse_reverse]

theorem trimmed_ofChars {cs : List Char} (h : ∀ c ∈ cs, Text.isBlank c = false) :
    Text.trimmed (Text.ofChars cs) = cs := by
  rw [Text.trimmed, Text.trim, trimBoth_eq_self, Text.chars_ofChars]
  intro p hp
  rcases List.mem_map.1 hp with ⟨c, hc, rfl⟩
  exact h c hc

theorem isBlank_of_mem_wholeChars {z : Int} {c : Char} (h : c ∈ wholeChars z) :
    Text.isBlank c = false := by
  rw [wholeChars, List.mem_append] at h
  rcases h with h | h
  · split at h
    · obtain rfl := List.mem_singleton.1 h
      decide
    · simp at h
  · exact Text.isBlank_eq_false_of_isDigit (isDigit_of_mem_toDigits h)

theorem trimmed_display (q : Rat) : Text.trimmed (display q) = displayChars q := by
  rw [Text.ofString, toList_display]
  refine trimmed_ofChars ?_
  intro c hc
  unfold displayChars at hc
  split at hc
  · exact isBlank_of_mem_wholeChars hc
  · rcases List.mem_append.1 hc with hc | hc
    · exact isBlank_of_mem_wholeChars hc
    · rcases List.mem_cons.1 hc with rfl | hc
      · decide
      · exact Text.isBlank_eq_false_of_isDigit (isDigit_of_mem_toDigits hc)

/-! ## Forms -/

theorem eq_false_of_mem_toDigits {n : Nat} {m : Char} (hm : m.isDigit = false) :
    ∀ c ∈ Nat.toDigits 10 n, decide (c = m) = false := by
  intro c hc
  exact decide_eq_false (ne_of_isDigit (isDigit_of_mem_toDigits hc) hm)

/-- A whole number has the form of a decimal without a point and without an exponent. -/
theorem form?_wholeChars (z : Int) :
    form? (wholeChars z) = some (.decimal ⟨decide (z < 0), z.natAbs, 0⟩) := by
  -- none of the marks that a decimal is cut at is a digit
  have hsplit := splitSign_wholeChars z []
  rw [List.append_nil, List.append_nil] at hsplit
  have hslash := cutAt_eq_none (eq_false_of_mem_toDigits (n := z.natAbs) (m := '/') (by decide))
  have hpoint := cutAt_eq_none (eq_false_of_mem_toDigits (n := z.natAbs) (m := '.') (by decide))
  have hexponent : cutAt (fun c => c = 'e' || c = 'E') (Nat.toDigits 10 z.natAbs) =
      (Nat.toDigits 10 z.natAbs, none) := by
    refine cutAt_eq_none ?_
    intro c hc
    rw [eq_false_of_mem_toDigits (by decide) c hc, eq_false_of_mem_toDigits (by decide) c hc]
    rfl
  rcases digits?_toDigits z.natAbs with ⟨ds, hds, hvalue⟩
  rw [form?, hsplit]
  simp [hslash, hpoint, hexponent, hds, hvalue, Decimal.unsigned?, Decimal.parts?, Decimal.exponent?]

theorem form?_quotient (z : Int) (d : Nat) :
    form? (wholeChars z ++ '/' :: Nat.toDigits 10 d) = some (.quotient z d) := by
  have hslash : cutAt (fun c => decide (c = '/')) (Nat.toDigits 10 z.natAbs ++ '/' :: Nat.toDigits 10 d) =
      (Nat.toDigits 10 z.natAbs, some (Nat.toDigits 10 d)) :=
    cutAt_eq_some (eq_false_of_mem_toDigits (by decide)) (by decide)
  rw [form?, splitSign_wholeChars]
  simp [hslash, natural?_toDigits, signed_natAbs]

theorem toRat_whole (z : Int) : Decimal.toRat ⟨decide (z < 0), z.natAbs, 0⟩ = z := by
  have hmagnitude : mkRat ((z.natAbs * tenPow 0 : Nat) : Int) (tenPow 0) = ((z.natAbs : Int) : Rat) := by
    simp [tenPow, Rat.mkRat_one]
  by_cases h : z < 0
  · have hz : (z.natAbs : Int) = -z := by omega
    simp only [Decimal.toRat, h, decide_true, if_true]
    rw [Int.toNat_zero, Int.neg_zero, Int.toNat_zero, hmagnitude, hz, Int.cast_neg, neg_neg]
  · have hz : (z.natAbs : Int) = z := by omega
    simp only [Decimal.toRat, h, decide_false]
    rw [if_neg (by decide), Int.toNat_zero, Int.neg_zero, Int.toNat_zero, hmagnitude, hz]

/-! ## Round trip -/

theorem displayChars_ne_nil (q : Rat) : displayChars q ≠ [] := by
  unfold displayChars wholeChars
  split <;> simp [Nat.toDigits_ne_nil]

/-- A displayed number denotes itself. -/
theorem parse_display (q : Rat) : parse (display q) = .ok q := by
  have hvalue : ∃ form, form? (displayChars q) = some form ∧ form.value? = some q := by
    unfold displayChars
    split
    case isTrue hden =>
      refine ⟨_, form?_wholeChars q.num, ?_⟩
      rw [Form.value?, toRat_whole, Rat.den_eq_one_iff q |>.1 hden]
    case isFalse =>
      refine ⟨_, form?_quotient q.num q.den, ?_⟩
      rw [Form.value?, if_neg q.den_nz, Rat.mkRat_self]
  rcases hvalue with ⟨form, hform, hvalue⟩
  -- there are no blanks to take off, and the text is not empty
  have hne : (displayChars q).isEmpty = false := by simpa using displayChars_ne_nil q
  rw [parse, trimmed_display]
  simp [hne, hform, hvalue]

/-- Different numbers are displayed differently. -/
theorem display_injective : Function.Injective display := by
  intro p q h
  have hparse : parse (display p) = parse (display q) := by rw [h]
  rw [parse_display, parse_display] at hparse
  exact Except.ok.inj hparse

theorem groupsFit_display {q : Rat} (h : isWritable q = true) : groupsFit (displayChars q) = true := by
  rcases Bool.and_eq_true_iff.1 h with ⟨hnum, hden⟩
  unfold displayChars
  split
  · rcases exists_groupsFitFrom_wholeChars hnum [] with ⟨n, hn⟩
    rw [List.append_nil] at hn
    rw [hn, groupsFitFrom]
  · rcases exists_groupsFitFrom_wholeChars hnum ('/' :: Nat.toDigits 10 q.den) with ⟨n, hn⟩
    have hlength : 0 + (Nat.toDigits 10 q.den).length ≤ digitLimit := by
      rw [Nat.zero_add]
      exact length_toDigits_le hden
    have hdigits := groupsFitFrom_append [] (fun c hc => isDigit_of_mem_toDigits (n := q.den) hc) hlength
    rw [List.append_nil] at hdigits
    rw [hn, groupsFitFrom_mark _ (by decide) (by decide), hdigits, groupsFitFrom]

/-- A displayed number is read back, if it can be written. -/
theorem read_display {q : Rat} (h : isWritable q = true) : read (display q) = .ok q := by
  rw [read, trimmed_display, groupsFit_display h, if_pos rfl, parse_display]

end Barline.Literal
