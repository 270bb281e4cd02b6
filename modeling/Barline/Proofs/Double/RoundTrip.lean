import Barline.Proofs.Double.Characters
import Barline.Proofs.Double.Rounding
import Barline.Proofs.Literal.RoundTrip

/-!
# Doubles read back — no two doubles have one text

The text of a finite double spells a decimal: with a point among the digits or zeros around them, or with an exponent.
Whatever the layout, the decimal has the value of the digits that were laid out, and these round to the double. So the
text tells doubles apart as far as their values do.

* `Layout.unsigned?_positional` and `Layout.unsigned?_scientific` read the two layouts.
* `unsigned?_magnitudeText` puts them together with the digits that were printed.
* `parse_text` says that a double is read through its text.
* `toRat?_eq_of_text_eq` says that doubles of one text have one value.
-/

namespace Barline

open Numeral

/-! ## Decimals that are read -/

namespace Numeral

namespace Decimal

/-- The value of a decimal is its coefficient, scaled and signed. -/
theorem toRat_eq (x : Decimal) :
    x.toRat = (if x.negative then -1 else 1) * (x.coefficient * 10 ^ x.exponent) := by
  have hmagnitude : mkRat (x.coefficient * tenPow x.exponent.toNat : Nat) (tenPow (-x.exponent).toNat) =
      x.coefficient * 10 ^ x.exponent := by
    rw [Rat.mkRat_eq_div, ← Double.tenPow_div_tenPow]
    push_cast
    rw [mul_div_assoc]
  unfold toRat
  simp only [hmagnitude]
  split
  · rw [neg_one_mul]
  · rw [one_mul]

section Layouts

variable {whole fraction mantissa tail : List Char} {e : Int} (negative : Bool)

/-- No digit is a mark of a decimal. -/
theorem mark_eq_false {c : Char} (h : c.isDigit = true) :
    decide (c = '.') = false ∧ (decide (c = 'e') || decide (c = 'E')) = false := by
  have hpoint : c ≠ '.' := ne_of_isDigit h (by decide)
  have hlower : c ≠ 'e' := ne_of_isDigit h (by decide)
  have hupper : c ≠ 'E' := ne_of_isDigit h (by decide)
  simp [hpoint, hlower, hupper]

theorem parts?_whole (hne : whole ≠ []) (h : ∀ c ∈ whole, c.isDigit = true) :
    parts? (cutAt (fun c => decide (c = '.')) whole) = some (digitValues whole, []) := by
  rw [cutAt_eq_none fun c hc => (mark_eq_false (h c hc)).1, parts?, digits?_of_isDigit hne h]
  rfl

theorem parts?_point (hwhole : whole ≠ []) (hfraction : fraction ≠ []) (h : ∀ c ∈ whole, c.isDigit = true)
    (h' : ∀ c ∈ fraction, c.isDigit = true) :
    parts? (cutAt (fun c => decide (c = '.')) (whole ++ '.' :: fraction)) =
      some (digitValues whole, digitValues fraction) := by
  rw [cutAt_eq_some (fun c hc => (mark_eq_false (h c hc)).1) (by decide), parts?]
  · simp [digits?_of_isDigit hwhole h, digits?_of_isDigit hfraction h', digitValues]
  · simpa using hwhole
  · simpa using hfraction

theorem marks_point (h : ∀ c ∈ whole, c.isDigit = true) (h' : ∀ c ∈ fraction, c.isDigit = true) :
    ∀ c ∈ whole ++ '.' :: fraction, (decide (c = 'e') || decide (c = 'E')) = false := by
  rw [List.forall_mem_append, List.forall_mem_cons]
  exact ⟨fun c hc => (mark_eq_false (h c hc)).2, by decide, fun c hc => (mark_eq_false (h' c hc)).2⟩

/-- A decimal without an exponent. -/
theorem unsigned?_of_parts? {ds fs : List Nat}
    (hmarks : ∀ c ∈ mantissa, (decide (c = 'e') || decide (c = 'E')) = false)
    (hparts : parts? (cutAt (fun c => decide (c = '.')) mantissa) = some (ds, fs)) :
    unsigned? negative mantissa = some ⟨negative, ofDigits (ds ++ fs), -(fs.length : Int)⟩ := by
  simp [unsigned?, cutAt_eq_none hmarks, hparts, exponent?]

/-- A decimal with an exponent. -/
theorem unsigned?_exponent {ds fs : List Nat}
    (hmarks : ∀ c ∈ mantissa, (decide (c = 'e') || decide (c = 'E')) = false)
    (hparts : parts? (cutAt (fun c => decide (c = '.')) mantissa) = some (ds, fs)) (htail : whole? tail = some e) :
    unsigned? negative (mantissa ++ 'e' :: tail) = some ⟨negative, ofDigits (ds ++ fs), e - fs.length⟩ := by
  simp [unsigned?, cutAt_eq_some hmarks (by decide : (decide ('e' = 'e') || decide ('e' = 'E')) = true), hparts,
    exponent?, htail]

end Layouts

end Decimal

end Numeral

namespace Double

/-! ## Digits that are laid out -/

namespace Layout

variable {s : List Char} (negative : Bool)

/-- What is taken off digits to leave the significant ones is zeros. -/
theorem exists_significant_append (digits : List Char) :
    ∃ k, significant digits ++ List.replicate k '0' = digits := by
  have hzeros : ∀ c ∈ (digits.reverse.takeWhile (· = '0')).reverse, c = '0' := by
    intro c hc
    simpa using List.all_eq_true.1 List.all_takeWhile c (List.mem_reverse.1 hc)
  refine ⟨(digits.reverse.takeWhile (· = '0')).reverse.length, ?_⟩
  rw [← List.eq_replicate_of_mem hzeros, significant, ← List.reverse_append, List.takeWhile_append_dropWhile,
    List.reverse_reverse]

/-- Zeros behind digits make a number ten times as great each. -/
theorem ofDigitChars_zeros (s : List Char) (k : Nat) :
    Nat.ofDigitChars 10 (s ++ List.replicate k '0') 0 = Nat.ofDigitChars 10 s 0 * 10 ^ k := by
  rw [Nat.ofDigitChars_append, Nat.ofDigitChars_replicate_zero, mul_comm]

/-- Zeros before digits change nothing. -/
theorem zeros_ofDigitChars (s : List Char) (k : Nat) :
    Nat.ofDigitChars 10 (List.replicate k '0' ++ s) 0 = Nat.ofDigitChars 10 s 0 := by
  rw [Nat.ofDigitChars_append, Nat.ofDigitChars_replicate_zero, Nat.mul_zero]

theorem isDigit_replicate (k : Nat) : ∀ c ∈ List.replicate k '0', c.isDigit = true := by
  intro c hc
  rw [List.eq_of_mem_replicate hc]
  decide

/-- Written out with a point, digits keep their value, with the point behind the first `point` of them. -/
theorem exists_positional (hs : ∀ c ∈ s, c.isDigit = true) (hne : s ≠ []) (point : Int) :
    ∃ whole fraction, positional s point = whole ++ '.' :: fraction ∧ whole ≠ [] ∧ fraction ≠ [] ∧
      (∀ c ∈ whole, c.isDigit = true) ∧ (∀ c ∈ fraction, c.isDigit = true) ∧
      (Nat.ofDigitChars 10 (whole ++ fraction) 0 : Rat) * 10 ^ (-(fraction.length : Int)) =
        Nat.ofDigitChars 10 s 0 * 10 ^ (point - s.length) := by
  unfold positional
  split
  case isTrue hpoint =>
    -- the zeros that fill the gap behind the point count in the exponent only
    refine ⟨['0'], List.replicate (-point).toNat '0' ++ s, rfl, by simp, by simp [hne], ?_, ?_, ?_⟩
    · exact List.all_eq_true.1 (by decide)
    · exact List.forall_mem_append.2 ⟨isDigit_replicate _, hs⟩
    · have hzeros : Nat.ofDigitChars 10 (['0'] ++ (List.replicate (-point).toNat '0' ++ s)) 0 =
          Nat.ofDigitChars 10 s 0 := zeros_ofDigitChars s ((-point).toNat + 1)
      have hexponent : -((List.replicate (-point).toNat '0' ++ s).length : Int) = point - s.length := by
        rw [List.length_append, List.length_replicate]
        omega
      rw [hzeros, hexponent]
  case isFalse hpoint =>
    simp only
    split
    case isTrue hwidth =>
      -- the zeros before the point, and the one behind it, count in the coefficient
      refine ⟨s ++ List.replicate (point.toNat - s.length) '0', ['0'], by simp, by simp [hne], by simp, ?_, ?_, ?_⟩
      · exact List.forall_mem_append.2 ⟨hs, isDigit_replicate _⟩
      · exact List.all_eq_true.1 (by decide)
      · have hzeros := ofDigitChars_zeros s (point.toNat - s.length + 1)
        rw [List.replicate_succ', ← List.append_assoc] at hzeros
        have hexponent : point - s.length = ((point.toNat - s.length : Nat) : Int) := by omega
        rw [hzeros, hexponent, zpow_natCast, pow_succ]
        simp [mul_assoc]
    case isFalse hwidth =>
      refine ⟨s.take point.toNat, s.drop point.toNat, rfl, ?_, ?_, ?_, ?_, ?_⟩
      · simp [hne]
        omega
      · simpa using hwidth
      · exact fun c hc => hs c (List.mem_of_mem_take hc)
      · exact fun c hc => hs c (List.mem_of_mem_drop hc)
      · have hexponent : -((s.drop point.toNat).length : Int) = point - s.length := by
          rw [List.length_drop]
          omega
        rw [List.take_append_drop, hexponent]

/-- A written exponent is read back, whatever zeros fill it up. -/
theorem whole?_exponentText (l : Layout) (e : Int) : whole? (l.exponentText e) = some e := by
  have hdigits : ∀ c ∈ List.replicate (l.exponentWidth - (Nat.toDigits 10 e.natAbs).length) '0' ++
      Nat.toDigits 10 e.natAbs, c.isDigit = true :=
    List.forall_mem_append.2 ⟨isDigit_replicate _, fun c hc => isDigit_of_mem_toDigits hc⟩
  have hnatural := natural?_of_isDigit (by simp [Nat.toDigits_ne_nil]) hdigits
  rw [zeros_ofDigitChars, Nat.ofDigitChars_ten_toDigits] at hnatural
  have hsigned := signed_natAbs e
  unfold exponentText
  by_cases he : e < 0
  · simp only [he, decide_true] at hsigned
    simp [whole?, splitSign, he, hnatural, hsigned]
  · simp only [he, decide_false] at hsigned
    simp [whole?, splitSign, he, hnatural, hsigned]

/-- Written with an exponent, digits keep their value, with the point behind the first of them. -/
theorem unsigned?_scientific (l : Layout) (hs : ∀ c ∈ s, c.isDigit = true) (hne : s ≠ []) (e : Int) :
    Decimal.unsigned? negative (l.scientific s e) =
      some ⟨negative, Nat.ofDigitChars 10 s 0, e + 1 - s.length⟩ := by
  cases s with
  | nil => exact absurd rfl hne
  | cons c tail =>
    have hc : c.isDigit = true := hs c (List.mem_cons_self ..)
    have htail : ∀ d ∈ tail, d.isDigit = true := fun d hd => hs d (List.mem_cons_of_mem c hd)
    have hhead : ∀ d ∈ [c], d.isDigit = true := List.forall_mem_singleton.2 hc
    rw [← ofDigits_digitValues]
    cases tail with
    | nil =>
      -- one digit has no point behind it
      have hmarks : ∀ d ∈ [c], (decide (d = 'e') || decide (d = 'E')) = false :=
        List.forall_mem_singleton.2 (Decimal.mark_eq_false hc).2
      have hread := Decimal.unsigned?_exponent negative hmarks (Decimal.parts?_whole (by simp) hhead)
        (whole?_exponentText l e)
      simpa [scientific] using hread
    | cons d tail =>
      have hread := Decimal.unsigned?_exponent negative (Decimal.marks_point hhead htail)
        (Decimal.parts?_point (by simp) (by simp) hhead htail) (whole?_exponentText l e)
      simpa [scientific, digitValues] using hread

theorem unsigned?_positional (hs : ∀ c ∈ s, c.isDigit = true) (hne : s ≠ []) (point : Int) :
    ∃ x, Decimal.unsigned? negative (positional s point) = some x ∧ x.negative = negative ∧
      (x.coefficient * 10 ^ x.exponent : Rat) = Nat.ofDigitChars 10 s 0 * 10 ^ (point - s.length) := by
  rcases exists_positional hs hne point with ⟨whole, fraction, heq, hwhole, hfraction, h, h', hvalue⟩
  have hread := Decimal.unsigned?_of_parts? negative (Decimal.marks_point h h')
    (Decimal.parts?_point hwhole hfraction h h')
  rw [heq]
  refine ⟨_, hread, rfl, ?_⟩
  simpa only [← digitValues_append, length_digitValues, ofDigits_digitValues] using hvalue

/-- The significant digits of a positive number are digits, at least one, and zeros complete them. -/
theorem exists_significant {n : Nat} (hpos : 0 < n) :
    ∃ k, significant (Nat.toDigits 10 n) ++ List.replicate k '0' = Nat.toDigits 10 n ∧
      (∀ c ∈ significant (Nat.toDigits 10 n), c.isDigit = true) ∧ significant (Nat.toDigits 10 n) ≠ [] := by
  rcases exists_significant_append (Nat.toDigits 10 n) with ⟨k, hsplit⟩
  refine ⟨k, hsplit, ?_, ?_⟩
  · intro c hc
    exact isDigit_of_mem_toDigits (hsplit ▸ List.mem_append_left _ hc)
  · intro hnil
    -- a number of zeros only would be zero
    rw [hnil, List.nil_append] at hsplit
    have hnumber : Nat.ofDigitChars 10 (Nat.toDigits 10 n) 0 = n := Nat.ofDigitChars_ten_toDigits
    rw [← hsplit, Nat.ofDigitChars_replicate_zero, Nat.mul_zero] at hnumber
    exact hpos.ne hnumber

/-- However an expansion is laid out, the decimal that is read has its value. -/
theorem unsigned?_expansion (l : Layout) {x : Expansion} (hpos : 0 < x.digits) :
    ∃ y, Decimal.unsigned? negative (l.expansion x) = some y ∧ y.negative = negative ∧
      (y.coefficient * 10 ^ y.exponent : Rat) = x.value := by
  rcases exists_significant hpos with ⟨k, hsplit, hdigits, hne⟩
  have hnumber : Nat.ofDigitChars 10 (significant (Nat.toDigits 10 x.digits)) 0 * 10 ^ k = x.digits := by
    rw [← ofDigitChars_zeros, hsplit, Nat.ofDigitChars_ten_toDigits]
  have hlength := congrArg List.length hsplit
  rw [List.length_append, List.length_replicate] at hlength
  -- the zeros that are not significant are in the place of the point instead
  have hvalue : (Nat.ofDigitChars 10 (significant (Nat.toDigits 10 x.digits)) 0 : Rat) *
      10 ^ (x.exponent + (Nat.toDigits 10 x.digits).length - (significant (Nat.toDigits 10 x.digits)).length) =
        x.value := by
    have hexponent : x.exponent + (Nat.toDigits 10 x.digits).length -
        (significant (Nat.toDigits 10 x.digits)).length = k + x.exponent := by
      rw [← hlength]
      push_cast
      ring
    rw [hexponent, zpow_add₀ (by norm_num), zpow_natCast, ← mul_assoc, Expansion.value]
    exact_mod_cast congrArg (· * (10 : Rat) ^ x.exponent) (congrArg (Nat.cast : Nat → Rat) hnumber)
  unfold expansion
  simp only
  split
  · rcases unsigned?_positional negative hdigits hne (x.exponent + (Nat.toDigits 10 x.digits).length) with
      ⟨y, hread, hnegative, hy⟩
    exact ⟨y, hread, hnegative, hy.trans hvalue⟩
  · refine ⟨_, unsigned?_scientific negative l hdigits hne _, rfl, ?_⟩
    simpa using hvalue

/-- An expansion that is laid out begins with a digit. -/
theorem exists_head_expansion (l : Layout) {x : Expansion} (hpos : 0 < x.digits) :
    ∃ c cs, l.expansion x = c :: cs ∧ c.isDigit = true := by
  rcases exists_significant hpos with ⟨_, _, hdigits, hne⟩
  unfold expansion
  simp only
  split
  · rcases exists_positional hdigits hne (x.exponent + (Nat.toDigits 10 x.digits).length) with
      ⟨whole, fraction, heq, hwhole, _, h, _, _⟩
    rcases List.exists_cons_of_ne_nil hwhole with ⟨c, cs, rfl⟩
    exact ⟨c, _, heq, h c (List.mem_cons_self ..)⟩
  · rcases List.exists_cons_of_ne_nil hne with ⟨c, cs, hcons⟩
    let e : Int := x.exponent + (Nat.toDigits 10 x.digits).length - 1
    refine ⟨c, (if cs.isEmpty then [] else '.' :: cs) ++ 'e' :: l.exponentText e, ?_, ?_⟩
    · simp [scientific, hcons, e]
    · exact hdigits c (hcons ▸ List.mem_cons_self ..)

/-- An expansion that is laid out has a point or an exponent. -/
theorem exists_mark_expansion (l : Layout) (x : Expansion) : ∃ c ∈ l.expansion x, c = '.' ∨ c = 'e' := by
  unfold expansion
  simp only
  split
  · refine ⟨'.', ?_, Or.inl rfl⟩
    unfold positional
    split
    · simp
    · simp only
      split <;> simp
  · exact ⟨'e', by simp [scientific], Or.inr rfl⟩

end Layout

/-! ## Doubles -/

section Doubles

variable {negative negative' : Bool} {rank rank' : Fin rankBound}

theorem toList_text_finite (negative : Bool) (rank : Fin rankBound) :
    (text (.finite negative rank)).toList =
      if negative then '-' :: magnitudeText rank else magnitudeText rank := by
  rw [text, String.toList_ofList]

/-- The value that the digits of a magnitude stand for. -/
def shownValue (rank : Nat) : Rat :=
  if rank = 0 then 0 else (shortest rank).value

theorem unsigned?_magnitudeText (negative : Bool) (rank : Nat) :
    ∃ x, Decimal.unsigned? negative (magnitudeText rank) = some x ∧
      x.toRat = (if negative then -1 else 1) * shownValue rank := by
  unfold magnitudeText shownValue
  split
  case isTrue hzero =>
    refine ⟨⟨negative, 0, -1⟩, rfl, ?_⟩
    simp [Decimal.toRat_eq]
  case isFalse hpos =>
    have hdigits := digits_pos_of_readsBack (Nat.pos_of_ne_zero hpos) (shortest_readsBack rank)
    rcases Layout.unsigned?_expansion negative layout hdigits with ⟨x, hread, hnegative, hvalue⟩
    refine ⟨x, hread, ?_⟩
    rw [Decimal.toRat_eq, hnegative, hvalue]

theorem ofDouble_finite (negative : Bool) (rank : Fin rankBound) :
    Literal.ofDouble (.finite negative rank) = .ok ((if negative then -1 else 1) * shownValue rank) := by
  unfold Literal.ofDouble shownValue
  simp only
  split
  · rw [mul_zero]
  · rw [Decimal.toRat_eq]
    rfl

theorem exists_head_magnitudeText (rank : Nat) : ∃ c cs, magnitudeText rank = c :: cs ∧ c.isDigit = true := by
  unfold magnitudeText
  split
  case isTrue => exact ⟨'0', _, rfl, by decide⟩
  case isFalse hpos =>
    exact Layout.exists_head_expansion layout
      (digits_pos_of_readsBack (Nat.pos_of_ne_zero hpos) (shortest_readsBack rank))

/-- The text of a finite double has a point or an exponent. -/
theorem exists_mark_text (negative : Bool) (rank : Fin rankBound) :
    ∃ c ∈ (text (.finite negative rank)).toList, c = '.' ∨ c = 'e' := by
  have hmagnitude : ∃ c ∈ magnitudeText rank, c = '.' ∨ c = 'e' := by
    unfold magnitudeText
    split
    · exact ⟨'.', by simp, Or.inl rfl⟩
    · exact Layout.exists_mark_expansion layout _
  rcases hmagnitude with ⟨c, hc, hmark⟩
  refine ⟨c, ?_, hmark⟩
  rw [toList_text_finite]
  split
  · exact List.mem_cons_of_mem _ hc
  · exact hc

theorem splitSign_text (negative : Bool) (rank : Fin rankBound) :
    splitSign (text (.finite negative rank)).toList = (negative, magnitudeText rank) := by
  rw [toList_text_finite]
  cases negative with
  | true => rfl
  | false =>
    rcases exists_head_magnitudeText rank with ⟨c, cs, hcons, hc⟩
    simp only [hcons]
    exact splitSign_of_isDigit cs hc

theorem isBlank_of_textCharacter {c : Char} (h : textCharacter c = true) : Text.isBlank c = false := by
  rcases Bool.or_eq_true_iff.1 h with hdigit | hletter
  · exact Text.isBlank_eq_false_of_isDigit hdigit
  · have hall : ['.', '+', '-', 'e', 'i', 'n', 'f', 'a'].all (!Text.isBlank ·) = true := by decide
    simpa using List.all_eq_true.1 hall c (List.contains_iff_mem.1 hletter)

/-- A double is read through its text. -/
theorem parse_text (negative : Bool) (rank : Fin rankBound) :
    Literal.parse (text (.finite negative rank)) = Literal.ofDouble (.finite negative rank) := by
  have htrimmed : Text.trimmed (text (.finite negative rank)) = (text (.finite negative rank)).toList :=
    Literal.trimmed_ofChars fun c hc => isBlank_of_textCharacter (textCharacter_of_mem_text _ c hc)
  have hne : (text (.finite negative rank)).toList.isEmpty = false := by
    rcases exists_mark_text negative rank with ⟨c, hc, _⟩
    simpa using List.ne_nil_of_mem hc
  -- there is no slash in it, so it is no quotient
  have hslash : cutAt (fun c => decide (c = '/')) (magnitudeText rank) = (magnitudeText rank, none) := by
    refine cutAt_eq_none ?_
    intro c hc
    refine decide_eq_false ?_
    rintro rfl
    exact absurd (textCharacter_magnitudeText rank _ hc) (by decide)
  rcases unsigned?_magnitudeText negative rank with ⟨x, hread, hvalue⟩
  have hform : Literal.form? (text (.finite negative rank)).toList = some (.decimal x) := by
    simp [Literal.form?, splitSign_text, hslash, hread]
  simp [Literal.parse, htrimmed, hne, hform, Literal.Form.value?, hvalue, ofDouble_finite]

theorem shownValue_pos {rank : Nat} (h : 0 < rank) : 0 < shownValue rank := by
  rw [shownValue, if_neg h.ne']
  have hdigits : (0 : Rat) < (shortest rank).digits := by
    exact_mod_cast digits_pos_of_readsBack h (shortest_readsBack rank)
  exact mul_pos hdigits (zpow_pos (by norm_num) _)

theorem shownValue_nonneg (rank : Nat) : 0 ≤ shownValue rank := by
  rcases Nat.eq_zero_or_pos rank with rfl | h
  · exact le_refl 0
  · exact (shownValue_pos h).le

/-- What is shown of a magnitude determines it. -/
theorem shownValue_injective : Function.Injective shownValue := by
  intro rank rank' h
  rcases Nat.eq_zero_or_pos rank with rfl | hrank
  · rcases Nat.eq_zero_or_pos rank' with rfl | hrank'
    · rfl
    · exact absurd h (shownValue_pos hrank').ne
  · rcases Nat.eq_zero_or_pos rank' with rfl | hrank'
    · exact absurd h (shownValue_pos hrank).ne'
    · rw [shownValue, shownValue, if_neg hrank.ne', if_neg hrank'.ne'] at h
      exact rank_eq_of_value_eq (shortest_readsBack rank) (shortest_readsBack rank') h

/-- Finite doubles of one text have one value. -/
theorem toRat?_eq_of_text_eq {negative negative' : Bool} {rank rank' : Fin rankBound}
    (h : text (.finite negative rank) = text (.finite negative' rank')) :
    toRat? (.finite negative rank) = toRat? (.finite negative' rank') := by
  have hparse := congrArg (fun t : String => Literal.parse t) h
  simp only [parse_text, ofDouble_finite, Except.ok.injEq] at hparse
  -- without the sign, the value determines the magnitude
  have habs : ∀ (b : Bool) (r : Nat), |(if b then -1 else 1) * shownValue r| = shownValue r := by
    intro b r
    cases b <;> simp [abs_of_nonneg (shownValue_nonneg r)]
  have hshown : shownValue rank = shownValue rank' :=
    calc shownValue rank = |(if negative then -1 else 1) * shownValue rank| := (habs negative rank).symm
      _ = |(if negative' then -1 else 1) * shownValue rank'| := congrArg abs hparse
      _ = shownValue rank' := habs negative' rank'
  obtain rfl : rank = rank' := Fin.ext (shownValue_injective hshown)
  rcases Nat.eq_zero_or_pos rank.val with hzero | hpos
  · -- zero has two signs and one value
    simp [toRat?, hzero, magnitude, numerator, mantissa, twoPow_pos]
  · have hsign := mul_right_cancel₀ (shownValue_pos hpos).ne' hparse
    have hnegative : negative = negative' := by
      revert hsign
      cases negative <;> cases negative' <;> norm_num
    rw [hnegative]

end Doubles

end Double

end Barline
