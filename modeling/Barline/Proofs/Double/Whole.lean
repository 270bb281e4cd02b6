import Barline.Double.Reader
import Barline.Proofs.Double.RoundTrip

/-!
# Whole numbers as doubles — what is left of digits that are read

A whole number that is typed as a text is read as a double, and a double has 53 significant bits. So a number that
needs more of them is rounded: to a multiple of a power of two (`unit`), which is one below `2 ^ 53` and grows with the
number, until from `2 ^ 1024` on there is no double any more.

* `magnitude_nearestRank_one` gives the double nearest to a whole number by its value.
* `toRat?_nearest_intCast` puts the sign and the upper end to it.
* `read?_wholeChars` says that digits are read as the double nearest to their number.
* `roundWhole_eq_self_iff` says which numbers stay what they are.
-/

namespace Barline.Double

open Numeral

/-! ## Rounded whole numbers -/

/-- The distance between neighbouring doubles around a whole number, but not less than one. -/
def unit (m : Nat) : Nat :=
  twoPow (m.log2 - 52)

/-- A natural number, rounded to the nearest multiple of its unit. -/
def roundNat (m : Nat) : Nat :=
  roundHalfEven m (unit m) * unit m

/-- A whole number, rounded to 53 significant bits. -/
def roundWhole (n : Int) : Int :=
  signed (decide (n < 0)) (roundNat n.natAbs)

/-- The significant bits of a natural number, as a number of 53 bits or the next power of two. -/
def significand (m : Nat) : Nat :=
  roundHalfEven (m * twoPow (52 - m.log2)) (unit m)

section Rounding

variable {m : Nat}

theorem twoPow_add (a b : Nat) : twoPow (a + b) = twoPow a * twoPow b :=
  Nat.pow_add 2 a b

theorem unit_pos (m : Nat) : 0 < unit m :=
  twoPow_pos _

theorem roundHalfEven_bounds {n d a b : Nat} (hlow : a ≤ n / d) (hhigh : n / d < b) :
    a ≤ roundHalfEven n d ∧ roundHalfEven n d ≤ b := by
  simp only [roundHalfEven]
  split
  · omega
  · split
    · omega
    · have hparity : n / d % 2 < 2 := Nat.mod_lt _ two_pos
      omega

theorem spacing_one (h : 0 < m) : spacing m 1 = (m.log2 : Int) - 52 := by
  rw [spacing_eq h one_pos, Nat.cast_one, div_one, Int.log_natCast, ← Nat.log2_eq_log_two]
  omega

theorem nearestRank_one (h : 0 < m) : nearestRank m 1 = (m.log2 + 1022) * twoPow 52 + significand m := by
  have hblock : ((m.log2 : Int) - 52 + 1074).toNat = m.log2 + 1022 := by omega
  have hbelow : (-((m.log2 : Int) - 52)).toNat = 52 - m.log2 := by omega
  have habove : ((m.log2 : Int) - 52).toNat = m.log2 - 52 := by omega
  rw [nearestRank_of_pos h, spacing_one h, hblock, hbelow, habove, Nat.one_mul]
  rfl

/-- Scaled to 53 bits, a number lies between two powers of two, and rounding does not leave that range. -/
theorem significand_bounds (h : 0 < m) : twoPow 52 ≤ significand m ∧ significand m ≤ twoPow 53 := by
  have hexponents : m.log2 + (52 - m.log2) = 52 + (m.log2 - 52) := by omega
  have hlow : twoPow 52 * unit m ≤ m * twoPow (52 - m.log2) :=
    calc twoPow 52 * unit m = twoPow m.log2 * twoPow (52 - m.log2) := by
          rw [unit, ← twoPow_add, ← twoPow_add, hexponents]
      _ ≤ m * twoPow (52 - m.log2) := Nat.mul_le_mul_right _ (Nat.log2_self_le h.ne')
  have hhigh : m * twoPow (52 - m.log2) < twoPow 53 * unit m :=
    calc m * twoPow (52 - m.log2) < twoPow (m.log2 + 1) * twoPow (52 - m.log2) :=
          Nat.mul_lt_mul_of_pos_right Nat.lt_log2_self (twoPow_pos _)
      _ = twoPow 53 * unit m := by
          rw [unit, ← twoPow_add, ← twoPow_add, Nat.add_right_comm, hexponents]
          congr 1
          omega
  exact roundHalfEven_bounds ((Nat.le_div_iff_mul_le (unit_pos m)).2 hlow)
    ((Nat.div_lt_iff_lt_mul (unit_pos m)).2 hhigh)

theorem roundHalfEven_one (m : Nat) : roundHalfEven m 1 = m := by
  simpa using roundHalfEven_mul_right (m := m) one_pos

theorem unit_of_log2_le (h : m.log2 ≤ 52) : unit m = 1 := by
  rw [unit, Nat.sub_eq_zero_of_le h]
  rfl

theorem roundNat_of_log2_le (h : m.log2 ≤ 52) : roundNat m = m := by
  rw [roundNat, unit_of_log2_le h, Nat.mul_one, roundHalfEven_one]

theorem significand_of_log2_le (h : m.log2 ≤ 52) : significand m = m * twoPow (52 - m.log2) := by
  rw [significand, unit_of_log2_le h, roundHalfEven_one]

theorem roundNat_of_le_log2 (h : 52 ≤ m.log2) : roundNat m = significand m * unit m := by
  rw [roundNat, significand, Nat.sub_eq_zero_of_le h]
  exact congrArg (fun n => roundHalfEven n (unit m) * unit m) (Nat.mul_one m).symm

theorem cast_twoPow (n : Nat) : (twoPow n : Rat) = 2 ^ (n : Int) := by
  rw [zpow_natCast]
  exact_mod_cast rfl

/-- Scaled back, the significant bits are the rounded number. -/
theorem significand_mul_zpow (m : Nat) : (significand m : Rat) * 2 ^ ((m.log2 : Int) - 52) = roundNat m := by
  -- with few bits the number was scaled up exactly, with many it was rounded to its unit
  rcases le_total m.log2 52 with h | h
  · have hexponent : ((52 - m.log2 : Nat) : Int) + ((m.log2 : Int) - 52) = 0 := by omega
    rw [significand_of_log2_le h, roundNat_of_log2_le h, Nat.cast_mul, cast_twoPow, mul_assoc,
      ← zpow_add₀ two_ne_zero, hexponent, zpow_zero, mul_one]
  · have hexponent : (m.log2 : Int) - 52 = ((m.log2 - 52 : Nat) : Int) := by omega
    rw [roundNat_of_le_log2 h, hexponent, Nat.cast_mul, unit, cast_twoPow]

/-- The magnitude of a rank that is given by its block and its significant bits. -/
theorem magnitude_block {block c : Nat} (hlow : twoPow 52 ≤ c) (hhigh : c ≤ twoPow 53) :
    magnitude (block * twoPow 52 + c) = c * 2 ^ ((block : Int) - 1074) := by
  have hdouble : twoPow 53 = twoPow 52 + twoPow 52 := rfl
  have hpos : 0 < twoPow 52 := twoPow_pos 52
  -- what is above the first power of two counts from there on
  obtain ⟨d, rfl⟩ := Nat.exists_eq_add_of_le hlow
  have hrank : block * twoPow 52 + (twoPow 52 + d) = d + twoPow 52 * (block + 1) := by ring
  have hnormal : ¬ d + twoPow 52 * (block + 1) < twoPow 52 := by
    have hle := Nat.le_mul_of_pos_right (twoPow 52) (Nat.succ_pos block)
    omega
  rw [magnitude, Rat.mkRat_eq_div, Int.cast_natCast, numerator_div_denominator, hrank, mantissa, if_neg hnormal,
    exponent, Nat.add_mul_div_left _ _ hpos, Nat.add_mul_mod_self_left]
  rcases Nat.lt_or_eq_of_le (show d ≤ twoPow 52 by omega) with h | rfl
  · have hexponent : ((max 1 (d / twoPow 52 + (block + 1)) : Nat) : Int) - 1075 = (block : Int) - 1074 := by
      rw [Nat.div_eq_of_lt h]
      omega
    rw [Nat.mod_eq_of_lt h, hexponent]
  · -- a carry has made it the first rank of the next block
    have hexponent : ((max 1 (twoPow 52 / twoPow 52 + (block + 1)) : Nat) : Int) - 1075 =
        1 + ((block : Int) - 1074) := by
      rw [Nat.div_self hpos]
      omega
    rw [Nat.mod_self, hexponent, zpow_add₀ two_ne_zero, zpow_one, Nat.add_zero, Nat.cast_add]
    ring

/-- The magnitude nearest to a whole number is its multiple of 53 bits. -/
theorem magnitude_nearestRank_one (h : 0 < m) : magnitude (nearestRank m 1) = roundNat m := by
  rcases significand_bounds h with ⟨hlow, hhigh⟩
  have hexponent : ((m.log2 + 1022 : Nat) : Int) - 1074 = (m.log2 : Int) - 52 := by omega
  rw [nearestRank_one h, magnitude_block hlow hhigh, hexponent, significand_mul_zpow]

theorem roundNat_bounds (h : 0 < m) : twoPow m.log2 ≤ roundNat m ∧ roundNat m ≤ twoPow (m.log2 + 1) := by
  rcases significand_bounds h with ⟨hlow, hhigh⟩
  have hpos : (0 : Rat) ≤ 2 ^ ((m.log2 : Int) - 52) := zpow_nonneg zero_le_two _
  have hscaled (k : Nat) : (twoPow k : Rat) * 2 ^ ((m.log2 : Int) - 52) = 2 ^ ((k : Int) + (m.log2 - 52)) := by
    rw [cast_twoPow, zpow_add₀ two_ne_zero]
  constructor
  · have hle : (twoPow 52 : Rat) * 2 ^ ((m.log2 : Int) - 52) ≤ roundNat m := by
      rw [← significand_mul_zpow]
      exact mul_le_mul_of_nonneg_right (by exact_mod_cast hlow) hpos
    have hexponent : ((52 : Nat) : Int) + (m.log2 - 52) = m.log2 := by omega
    rw [hscaled, hexponent, ← cast_twoPow] at hle
    exact_mod_cast hle
  · have hle : (roundNat m : Rat) ≤ twoPow 53 * 2 ^ ((m.log2 : Int) - 52) := by
      rw [← significand_mul_zpow]
      exact mul_le_mul_of_nonneg_right (by exact_mod_cast hhigh) hpos
    have hexponent : ((53 : Nat) : Int) + (m.log2 - 52) = (m.log2 + 1 : Nat) := by omega
    rw [hscaled, hexponent, ← cast_twoPow] at hle
    exact_mod_cast hle

theorem twoPow_le_twoPow {a b : Nat} (h : a ≤ b) : twoPow a ≤ twoPow b :=
  Nat.pow_le_pow_right two_pos h

theorem twoPow_lt_twoPow {a b : Nat} (h : a < b) : twoPow a < twoPow b :=
  Nat.pow_lt_pow_right one_lt_two h

/-- The last finite rank is passed where the rounded number reaches the next power of two. -/
theorem nearestRank_one_lt_iff (h : 0 < m) : nearestRank m 1 < rankBound ↔ roundNat m < twoPow 1024 := by
  rcases significand_bounds h with ⟨hlow, hhigh⟩
  rcases roundNat_bounds h with ⟨hleast, hgreatest⟩
  have hdouble : twoPow 53 = twoPow 52 + twoPow 52 := rfl
  have hpos : 0 < twoPow 52 := twoPow_pos 52
  rw [nearestRank_one h, rankBound]
  -- the last block of ranks is that of the numbers with 1024 bits
  rcases lt_trichotomy m.log2 1023 with hlog | hlog | hlog
  · have hblock : (m.log2 + 1022) * twoPow 52 ≤ 2044 * twoPow 52 := Nat.mul_le_mul_right _ (by omega)
    have hpower : twoPow (m.log2 + 1) < twoPow 1024 := twoPow_lt_twoPow (by omega)
    exact iff_of_true (by omega) (hgreatest.trans_lt hpower)
  · -- here it depends on whether the significant bits are carried over
    have hvalue : roundNat m = significand m * twoPow 971 := by
      rw [roundNat_of_le_log2 (by omega), unit, hlog]
    have hend : twoPow 1024 = twoPow 53 * twoPow 971 := twoPow_add 53 971
    rw [hvalue, hend, Nat.mul_lt_mul_right (twoPow_pos 971), hlog]
    omega
  · have hblock : 2046 * twoPow 52 ≤ (m.log2 + 1022) * twoPow 52 := Nat.mul_le_mul_right _ (by omega)
    have hpower : twoPow 1024 ≤ twoPow m.log2 := twoPow_le_twoPow (by omega)
    exact iff_of_false (by omega) (by omega)

end Rounding

/-! ## The double nearest to a whole number -/

section Nearest

variable {n : Int}

theorem natAbs_roundWhole (n : Int) : (roundWhole n).natAbs = roundNat n.natAbs := by
  rw [roundWhole, signed]
  split <;> simp

/-- The double nearest to a whole number has its rounded value, unless that is beyond all finite ones. -/
theorem toRat?_nearest_intCast (n : Int) :
    (nearest n).toRat? = if (roundWhole n).natAbs < twoPow 1024 then some (roundWhole n : Rat) else none := by
  have hnegative : decide ((n : Rat) < 0) = decide (n < 0) := by simp
  rw [nearest, Rat.num_intCast, Rat.den_intCast, hnegative, natAbs_roundWhole]
  rcases Nat.eq_zero_or_pos n.natAbs with hzero | hpos
  · obtain rfl := Int.natAbs_eq_zero.1 hzero
    decide +kernel
  · rw [ofRank]
    by_cases hfinite : nearestRank n.natAbs 1 < rankBound
    · rw [dif_pos hfinite, if_pos ((nearestRank_one_lt_iff hpos).1 hfinite), toRat?,
        magnitude_nearestRank_one hpos, roundWhole, signed]
      cases decide (n < 0) <;> simp
    · rw [dif_neg hfinite, if_neg (mt (nearestRank_one_lt_iff hpos).2 hfinite)]
      rfl

/-- A number stays what it is if it is a multiple of its unit. -/
theorem roundWhole_eq_self_iff : roundWhole n = n ↔ (unit n.natAbs : Int) ∣ n := by
  have hsigned : roundWhole n = n ↔ roundNat n.natAbs = n.natAbs := by
    constructor
    · intro h
      rw [← natAbs_roundWhole, h]
    · intro h
      rw [roundWhole, h, signed_natAbs]
  rw [hsigned, Int.natCast_dvd]
  constructor
  · intro h
    rw [roundNat] at h
    exact Dvd.intro_left _ h
  · rintro ⟨k, hk⟩
    have hproduct : n.natAbs = k * unit n.natAbs := hk.trans (Nat.mul_comm _ _)
    calc roundNat n.natAbs = roundHalfEven (k * unit n.natAbs) (unit n.natAbs) * unit n.natAbs := by
          rw [roundNat, ← hproduct]
      _ = k * unit n.natAbs := by rw [roundHalfEven_mul_right (unit_pos _)]
      _ = n.natAbs := hproduct.symm

/-- Every whole number up to `2 ^ 53` stays what it is. -/
theorem roundWhole_of_natAbs_le (h : n.natAbs ≤ twoPow 53) : roundWhole n = n := by
  rw [roundWhole_eq_self_iff, Int.natCast_dvd]
  rcases Nat.lt_or_eq_of_le h with hlt | heq
  · rcases Nat.eq_zero_or_pos n.natAbs with hzero | hpos
    · rw [hzero]
      exact Nat.dvd_zero _
    · rw [unit_of_log2_le (Nat.lt_succ_iff.1 ((Nat.log2_lt hpos.ne').2 hlt))]
      exact Nat.one_dvd _
  · rw [heq]
    decide +kernel

end Nearest

/-! ## Reading digits -/

section Reading

theorem toLower_of_isDigit {c : Char} (h : c.isDigit = true) : c.toLower = c := by
  have hrange : 48 ≤ c.toNat ∧ c.toNat ≤ 57 := by
    simpa [Char.isDigit, UInt32.le_iff_toNat_le] using h
  have hupper : ¬ (c.val ≥ 'A'.val ∧ c.val ≤ 'Z'.val) := by
    rintro ⟨hlow, -⟩
    have hletter : 65 ≤ c.toNat := by simpa [UInt32.le_iff_toNat_le] using hlow
    omega
  exact dif_neg hupper

/-- Digits are no word. -/
theorem ofWord?_toDigits (negative : Bool) (m : Nat) : ofWord? negative (Nat.toDigits 10 m) = none := by
  have hword : ∀ w : String, w.toList.all Char.isDigit = false → lowerWord (Nat.toDigits 10 m) ≠ w := by
    intro w hw heq
    have hlower : (Nat.toDigits 10 m).map Char.toLower = Nat.toDigits 10 m := by
      refine (List.map_congr_left ?_).trans (List.map_id _)
      intro c hc
      exact toLower_of_isDigit (isDigit_of_mem_toDigits hc)
    have hdigits : (Nat.toDigits 10 m).all Char.isDigit = true :=
      List.all_eq_true.2 fun c hc => isDigit_of_mem_toDigits hc
    rw [← heq, lowerWord, String.toList_ofList, hlower, hdigits] at hw
    cases hw
  simp only [ofWord?]
  rw [if_neg, if_neg]
  · exact hword "nan" rfl
  · rw [not_or]
    exact ⟨hword "inf" rfl, hword "infinity" rfl⟩

theorem unsigned?_toDigits (negative : Bool) (m : Nat) :
    Decimal.unsigned? negative (Nat.toDigits 10 m) = some ⟨negative, m, 0⟩ := by
  have hdigits : ∀ c ∈ Nat.toDigits 10 m, c.isDigit = true := fun c hc => isDigit_of_mem_toDigits hc
  have hmarks : ∀ c ∈ Nat.toDigits 10 m, (decide (c = 'e') || decide (c = 'E')) = false :=
    fun c hc => (Decimal.mark_eq_false (hdigits c hc)).2
  rw [Decimal.unsigned?_of_parts? negative hmarks (Decimal.parts?_whole Nat.toDigits_ne_nil hdigits), List.append_nil,
    ofDigits_digitValues, Nat.ofDigitChars_ten_toDigits]
  rfl

theorem tenPow_le_of_lt_length {k m : Nat} (hk : 0 < k) (h : k < (Nat.toDigits 10 m).length) : tenPow k ≤ m := by
  have hlong := not_le.2 h
  rwa [Nat.length_toDigits_le_iff (by decide) hk, not_lt] at hlong

theorem le_log2_of_twoPow_le {k m : Nat} (hm : 0 < m) (h : twoPow k ≤ m) : k ≤ m.log2 :=
  (Nat.le_log2 hm.ne').2 h

/-- The shortcut for decimals that are far too great leads where rounding would have led. -/
theorem ofDecimal_natural (negative : Bool) (m : Nat) :
    ofDecimal ⟨negative, m, 0⟩ = ofRank negative (nearestRank m 1) := by
  simp only [ofDecimal]
  split
  case isTrue hzero =>
    obtain rfl : m = 0 := by omega
    rfl
  case isFalse hpos =>
    split
    case isTrue hgreat =>
      have hm : 0 < m := by omega
      have hwidth : 310 < (Nat.toDigits 10 m).length := by
        simp only [decimalWidth] at hgreat
        omega
      -- more than 310 digits are more than 1024 bits
      have hpowers : twoPow 1024 ≤ tenPow 310 := by decide +kernel
      have hlog : 1024 ≤ m.log2 :=
        le_log2_of_twoPow_le hm (hpowers.trans (tenPow_le_of_lt_length (by decide) hwidth))
      have hbeyond : twoPow 1024 ≤ roundNat m := (twoPow_le_twoPow hlog).trans (roundNat_bounds hm).1
      rw [ofRank, dif_neg (mt (nearestRank_one_lt_iff hm).1 (not_lt.2 hbeyond))]
    case isFalse =>
      simp [tenPow]

/-- The digits of a whole number are read as the double nearest to it. -/
theorem read?_wholeChars (n : Int) : read? (wholeChars n) = some (nearest n) := by
  have hsplit := splitSign_wholeChars n []
  rw [List.append_nil, List.append_nil] at hsplit
  have hnegative : decide ((n : Rat) < 0) = decide (n < 0) := by simp
  rw [read?, hsplit]
  simp only [ofWord?_toDigits, unsigned?_toDigits, Option.map_some, ofDecimal_natural]
  rw [nearest, Rat.num_intCast, Rat.den_intCast, hnegative]

end Reading

end Barline.Double
