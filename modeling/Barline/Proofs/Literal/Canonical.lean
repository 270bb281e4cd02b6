import Barline.Proofs.Literal.RoundTrip
import Mathlib.Data.Rat.Lemmas

/-!
# Canonical literals — one text for every number

Many literals spell the same number, but only one of them is canonical: a whole number by its digits, any other number
as a quotient in lowest terms. What is displayed is the canonical literal, so two literals that are read have one value
exactly if their values are displayed alike.
-/

namespace Barline.Literal

open Numeral

/-- The canonical literal of a number: an optional minus sign and digits, and for a number that is not whole a slash and
the digits of the denominator in lowest terms. -/
inductive Canonical : List Char → Rat → Prop where
  | whole (z : Int) : Canonical ((if z < 0 then ['-'] else []) ++ Nat.toDigits 10 z.natAbs) z
  | quotient {z : Int} {d : Nat} (hd : 2 ≤ d) (hlowest : z.natAbs.Coprime d) :
      Canonical ((if z < 0 then ['-'] else []) ++ Nat.toDigits 10 z.natAbs ++ '/' :: Nat.toDigits 10 d) (z / d)

theorem canonical_displayChars (q : Rat) : Canonical (displayChars q) q := by
  unfold displayChars
  split
  case isTrue hden =>
    have hwhole : Canonical (wholeChars q.num) (q.num : Rat) := .whole q.num
    rwa [(Rat.den_eq_one_iff q).1 hden] at hwhole
  case isFalse hden =>
    have hpos : 2 ≤ q.den := by
      have := q.den_pos
      omega
    have hquotient : Canonical (wholeChars q.num ++ '/' :: Nat.toDigits 10 q.den) (q.num / q.den : Rat) :=
      .quotient hpos q.reduced
    rwa [Rat.num_div_den] at hquotient

namespace Canonical

variable {cs : List Char} {q : Rat}

/-- A number has no other canonical literal than the one that is displayed. -/
theorem eq_displayChars (h : Canonical cs q) : cs = displayChars q := by
  cases h with
  | whole z => rw [displayChars, if_pos (Rat.den_intCast z), Rat.num_intCast, wholeChars]
  | @quotient z d hd hlowest =>
    have hpos : (0 : Int) < d := by omega
    have hnum : ((z : Rat) / ((d : Int) : Rat)).num = z := Rat.num_div_eq_of_coprime hpos hlowest
    have hden : (((z : Rat) / ((d : Int) : Rat)).den : Int) = d := Rat.den_div_eq_of_coprime hpos hlowest
    rw [Int.cast_natCast] at hnum hden
    have hden : ((z : Rat) / (d : Rat)).den = d := by exact_mod_cast hden
    rw [displayChars, hnum, hden, if_neg (show ¬ d = 1 by omega), wholeChars]

end Canonical

/-- What is displayed is the canonical literal and no other text. -/
theorem toList_display_eq_iff {cs : List Char} {q : Rat} : (display q).toList = cs ↔ Canonical cs q := by
  rw [toList_display]
  constructor
  · rintro rfl
    exact canonical_displayChars q
  · intro h
    exact h.eq_displayChars.symm

/-! ## Characters -/

theorem isDigit_or_minus {z : Int} : ∀ c ∈ wholeChars z, c.isDigit = true ∨ c = '-' := by
  unfold wholeChars
  refine List.forall_mem_append.2 ⟨?_, fun c hc => Or.inl (isDigit_of_mem_toDigits hc)⟩
  split <;> simp

/-- There is neither a point nor an exponent in what is displayed. -/
theorem isDigit_or_minus_or_slash (q : Rat) : ∀ c ∈ displayChars q, c.isDigit = true ∨ c = '-' ∨ c = '/' := by
  have hwhole : ∀ c ∈ wholeChars q.num, c.isDigit = true ∨ c = '-' ∨ c = '/' :=
    fun c hc => (isDigit_or_minus c hc).imp_right Or.inl
  unfold displayChars
  split
  · exact hwhole
  · refine List.forall_mem_append.2 ⟨hwhole, List.forall_mem_cons.2 ⟨Or.inr (Or.inr rfl), ?_⟩⟩
    exact fun c hc => Or.inl (isDigit_of_mem_toDigits hc)

/-- A slash is displayed for the numbers that are not whole, and for no others. -/
theorem slash_mem_displayChars_iff (q : Rat) : '/' ∈ displayChars q ↔ ¬ ∃ z : Int, q = z := by
  have hslash : '/' ∉ wholeChars q.num := fun hmem => absurd (isDigit_or_minus _ hmem) (by decide)
  unfold displayChars
  split
  case isTrue hden => simpa [hslash] using ⟨q.num, (Rat.den_eq_one_iff q |>.1 hden).symm⟩
  case isFalse hden =>
    simp only [List.mem_append, List.mem_cons, true_or, or_true, true_iff]
    rintro ⟨z, rfl⟩
    exact hden (Rat.den_intCast z)

/-- Numbers are displayed canonically: as the canonical literal and no other text, of digits, a minus sign and a slash,
of which the slash is there exactly if the number is not whole. What is displayed is read back as the number, also
within the limit if it can be written at all; and two literals have one value exactly if their values are displayed
alike. -/
theorem display_is_canonical :
    (∀ q : Rat, (∀ cs, (display q).toList = cs ↔ Canonical cs q) ∧
        (∀ c ∈ (display q).toList, c.isDigit = true ∨ c = '-' ∨ c = '/') ∧
        ('/' ∈ (display q).toList ↔ ¬ ∃ z : Int, q = z) ∧ parse (display q) = .ok q ∧
        (isWritable q = true → read (display q) = .ok q)) ∧
      ∀ {s t : Text} {p q : Rat}, parse s = .ok p → parse t = .ok q → (p = q ↔ display p = display q) := by
  refine ⟨?_, ?_⟩
  · intro q
    refine ⟨fun cs => toList_display_eq_iff, ?_, ?_, parse_display q, read_display⟩
    · rw [toList_display]
      exact isDigit_or_minus_or_slash q
    · rw [toList_display]
      exact slash_mem_displayChars_iff q
  · intro s t p q _ _
    exact display_injective.eq_iff.symm

/-- A half that is typed as a decimal and one that is typed as a quotient are displayed alike, with a slash. -/
theorem halves_are_displayed_alike :
    ∃ p q, parse " +0.50" = .ok p ∧ parse "2/4" = .ok q ∧ display p = display q ∧
      '/' ∈ (display q).toList ∧ read (display q) = .ok q := by
  have hdecimal : parse " +0.50" = .ok (mkRat 50 100) := rfl
  have hquotient : parse "2/4" = .ok (mkRat 2 4) := rfl
  have hhalf : (mkRat 50 100 : Rat) = mkRat 2 4 := by norm_num [Rat.mkRat_eq_div]
  have hfraction : ¬ ∃ z : Int, (mkRat 2 4 : Rat) = z := by
    rintro ⟨z, hz⟩
    have hden : (mkRat 2 4 : Rat).den = 1 := hz ▸ Rat.den_intCast z
    exact absurd hden (by decide)
  rcases display_is_canonical.1 (mkRat 2 4) with ⟨_, _, hslash, _, hread⟩
  exact ⟨_, _, hdecimal, hquotient, (display_is_canonical.2 hdecimal hquotient).1 hhalf, hslash.2 hfraction,
    hread (by decide +kernel)⟩

end Barline.Literal
