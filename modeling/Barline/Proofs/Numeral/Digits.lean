import Barline.Numeral
import Mathlib.Tactic.Linarith

/-!
# Written digits — whole numbers read back

A whole number is written as its decimal digits, with a minus sign in front when it is negative. Reading what is
written gives the number again, for numbers of any length; and a number that can be written keeps to the limit on
digit groups.
-/

namespace Barline

/-! ## Single digits -/

theorem Text.digitValue?_of_isDigit {c : Char} (h : c.isDigit = true) :
    Text.digitValue? c = some (c.toNat - '0'.toNat) := by
  have hrange : 48 ≤ c.toNat ∧ c.toNat ≤ 57 := by
    simpa [Char.isDigit, UInt32.le_iff_toNat_le] using h
  have hrow : (decide (48 ≤ c.toNat) && decide (c.toNat < 48 + 10)) = true := by
    simp only [Bool.and_eq_true, decide_eq_true_eq]
    omega
  simp [Text.digitValue?, Text.digitZeros, hrow]

theorem Text.isDigit_of_isDigit {c : Char} (h : c.isDigit = true) : Text.isDigit c = true := by
  rw [Text.isDigit, Text.digitValue?_of_isDigit h]
  rfl

theorem ne_of_isDigit {c d : Char} (h : c.isDigit = true) (hd : d.isDigit = false) : c ≠ d := by
  rintro rfl
  rw [h] at hd
  exact absurd hd (by decide)

theorem Text.isBlank_eq_false_of_isDigit {c : Char} (h : c.isDigit = true) : Text.isBlank c = false := by
  have hrange : 48 ≤ c.toNat ∧ c.toNat ≤ 57 := by
    simpa [Char.isDigit, UInt32.le_iff_toNat_le] using h
  simp only [Text.isBlank, Bool.or_eq_false_iff, Bool.and_eq_false_iff, decide_eq_false_iff_not,
    beq_eq_false_iff_ne]
  omega

namespace Numeral

/-! ## Digit groups -/

/-- The values of digits. -/
def digitValues (cs : List Char) : List Nat :=
  cs.map fun c => c.toNat - '0'.toNat

@[simp] theorem digitValues_append (cs ds : List Char) : digitValues (cs ++ ds) = digitValues cs ++ digitValues ds :=
  List.map_append

@[simp] theorem length_digitValues (cs : List Char) : (digitValues cs).length = cs.length :=
  List.length_map _

theorem ofDigits_digitValues (cs : List Char) : ofDigits (digitValues cs) = Nat.ofDigitChars 10 cs 0 := by
  rw [ofDigits, digitValues, List.foldl_map, Nat.ofDigitChars_eq_foldl]

theorem digits?_of_isDigit {cs : List Char} (hne : cs ≠ []) (h : ∀ c ∈ cs, c.isDigit = true) :
    digits? cs = some (digitValues cs) := by
  induction cs with
  | nil => exact absurd rfl hne
  | cons c rest ih =>
    have hc : Text.digitValue? c = some (c.toNat - '0'.toNat) :=
      Text.digitValue?_of_isDigit (h c (List.mem_cons_self ..))
    -- only an underscore behind a digit is read in a different way
    cases rest with
    | nil =>
      rw [digits?, hc]
      rfl
    | cons d rest =>
      have hd : d ≠ '_' := ne_of_isDigit (h d (by simp)) (by decide)
      have hrest := ih (by simp) (fun e he => h e (List.mem_cons_of_mem c he))
      rw [digits?, hc, hrest]
      · rfl
      · simp
      · simpa using hd

theorem natural?_of_isDigit {cs : List Char} (hne : cs ≠ []) (h : ∀ c ∈ cs, c.isDigit = true) :
    natural? cs = some (Nat.ofDigitChars 10 cs 0) := by
  rw [natural?, digits?_of_isDigit hne h, Option.map_some]
  exact congrArg some (ofDigits_digitValues cs)

theorem isDigit_of_mem_toDigits {n : Nat} {c : Char} (h : c ∈ Nat.toDigits 10 n) : c.isDigit = true :=
  Nat.isDigit_of_mem_toDigits (by decide) (by decide) h

/-- A digit group that is written from a number denotes the number. -/
theorem digits?_toDigits (n : Nat) :
    ∃ ds, digits? (Nat.toDigits 10 n) = some ds ∧ ofDigits ds = n := by
  refine ⟨_, digits?_of_isDigit Nat.toDigits_ne_nil fun c hc => isDigit_of_mem_toDigits hc, ?_⟩
  rw [ofDigits_digitValues, Nat.ofDigitChars_ten_toDigits]

theorem natural?_toDigits (n : Nat) : natural? (Nat.toDigits 10 n) = some n := by
  rw [natural?_of_isDigit Nat.toDigits_ne_nil fun c hc => isDigit_of_mem_toDigits hc,
    Nat.ofDigitChars_ten_toDigits]

/-! ## Signs -/

/-- The characters of a whole number. -/
def wholeChars (z : Int) : List Char :=
  (if z < 0 then ['-'] else []) ++ Nat.toDigits 10 z.natAbs

theorem toList_toString (z : Int) : (toString z).toList = wholeChars z := by
  rw [Int.toString_eq_repr, Int.repr_eq_if, wholeChars]
  by_cases h : z < 0
  · have habs : (-z).toNat = z.natAbs := by omega
    rw [if_neg (by omega), if_pos h, String.toList_append, Nat.toList_repr, habs]
    rfl
  · have habs : z.toNat = z.natAbs := by omega
    rw [if_pos (by omega), if_neg h, Nat.toList_repr, habs]
    rfl

theorem splitSign_of_isDigit {c : Char} (cs : List Char) (h : c.isDigit = true) :
    splitSign (c :: cs) = (false, c :: cs) := by
  have hplus : c ≠ '+' := ne_of_isDigit h (by decide)
  have hminus : c ≠ '-' := ne_of_isDigit h (by decide)
  rw [splitSign]
  · simpa using hplus
  · simpa using hminus

theorem splitSign_wholeChars (z : Int) (rest : List Char) :
    splitSign (wholeChars z ++ rest) = (decide (z < 0), Nat.toDigits 10 z.natAbs ++ rest) := by
  rw [wholeChars]
  by_cases h : z < 0
  · simp [h, splitSign]
  · simp only [h, if_false, List.nil_append, decide_false]
    cases hds : Nat.toDigits 10 z.natAbs with
    | nil => exact absurd hds Nat.toDigits_ne_nil
    | cons c ds =>
      have hc : c.isDigit = true := isDigit_of_mem_toDigits (hds ▸ List.mem_cons_self ..)
      exact splitSign_of_isDigit (ds ++ rest) hc

theorem signed_natAbs (z : Int) : signed (decide (z < 0)) z.natAbs = z := by
  by_cases h : z < 0
  · rw [signed, decide_eq_true h, if_pos rfl]
    omega
  · rw [signed, decide_eq_false h, if_neg (by simp)]
    omega

theorem whole?_wholeChars (z : Int) : whole? (wholeChars z) = some z := by
  have hsplit := splitSign_wholeChars z []
  rw [List.append_nil, List.append_nil] at hsplit
  rw [whole?, hsplit]
  simp [natural?_toDigits, signed_natAbs]

/-! ## Marks -/

section CutAt

variable {mark : Char → Bool} {before after : List Char} {m : Char}

theorem cutAt_eq_none (h : ∀ c ∈ before, mark c = false) : cutAt mark before = (before, none) := by
  induction before with
  | nil => rfl
  | cons c rest ih =>
    have hc : mark c = false := h c (List.mem_cons_self ..)
    have hrest := ih (fun d hd => h d (List.mem_cons_of_mem c hd))
    simp [cutAt, hc, hrest]

theorem cutAt_eq_some (h : ∀ c ∈ before, mark c = false) (hm : mark m = true) :
    cutAt mark (before ++ m :: after) = (before, some after) := by
  induction before with
  | nil => simp [cutAt, hm]
  | cons c rest ih =>
    have hc : mark c = false := h c (List.mem_cons_self ..)
    have hrest := ih (fun d hd => h d (List.mem_cons_of_mem c hd))
    simp [cutAt, hc, hrest]

end CutAt

/-! ## The limit -/

theorem tenPow_eq_pow (n : Nat) : tenPow n = 10 ^ n := rfl

theorem length_toDigits_le {z : Int} (h : isWritable z = true) :
    (Nat.toDigits 10 z.natAbs).length ≤ digitLimit := by
  rw [Nat.length_toDigits_le_iff (by decide) (by decide), ← tenPow_eq_pow]
  exact of_decide_eq_true h

theorem groupsFitFrom_append {n : Nat} {ds : List Char} (rest : List Char)
    (h : ∀ c ∈ ds, c.isDigit = true) (hlimit : n + ds.length ≤ digitLimit) :
    groupsFitFrom n (ds ++ rest) = groupsFitFrom (n + ds.length) rest := by
  induction ds generalizing n with
  | nil => rfl
  | cons c ds ih =>
    have hc : c.isDigit = true := h c (List.mem_cons_self ..)
    rw [List.length_cons] at hlimit
    have hrest := ih (n := n + 1) (fun d hd => h d (List.mem_cons_of_mem c hd)) (by omega)
    rw [List.cons_append, groupsFitFrom, if_neg (ne_of_isDigit hc (by decide)),
      if_pos (Text.isDigit_of_isDigit hc), hrest, decide_eq_true (by omega), Bool.true_and,
      List.length_cons]
    congr 1
    omega

theorem groupsFitFrom_mark {n : Nat} {c : Char} (rest : List Char) (hc : c ≠ '_')
    (hdigit : Text.isDigit c = false) : groupsFitFrom n (c :: rest) = groupsFitFrom 0 rest := by
  rw [groupsFitFrom, if_neg hc, hdigit]
  rfl

/-- After a whole number that can be written, the limit is a matter of what follows. -/
theorem exists_groupsFitFrom_wholeChars {z : Int} (h : isWritable z = true) (rest : List Char) :
    ∃ n, groupsFit (wholeChars z ++ rest) = groupsFitFrom n rest := by
  have hlength : 0 + (Nat.toDigits 10 z.natAbs).length ≤ digitLimit := by
    rw [Nat.zero_add]
    exact length_toDigits_le h
  -- the minus sign starts a new group, so the count is the same with and without it
  refine ⟨0 + (Nat.toDigits 10 z.natAbs).length, ?_⟩
  rw [groupsFit, wholeChars]
  by_cases hneg : z < 0
  · rw [if_pos hneg, List.append_assoc, List.cons_append, List.nil_append,
      groupsFitFrom_mark _ (by decide) (by decide)]
    exact groupsFitFrom_append rest (fun c hc => isDigit_of_mem_toDigits hc) hlength
  · rw [if_neg hneg, List.nil_append]
    exact groupsFitFrom_append rest (fun c hc => isDigit_of_mem_toDigits hc) hlength

end Numeral

end Barline
