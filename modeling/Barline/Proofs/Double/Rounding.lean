import Barline.Double.Shortest
import Mathlib.Algebra.Order.Ring.Rat
import Mathlib.Data.Int.Log
import Mathlib.Data.Rat.Floor
import Mathlib.Tactic.Ring

/-!
# Rounding — the nearest double is a matter of value

A fraction is rounded by its numerator and its denominator, but only its value counts: the spacing of the doubles around
it is a logarithm of the value, and to round a fraction half to even does not depend on how it is written. A fraction
that has the value of a magnitude is therefore rounded to that magnitude, and the digits that are printed of a magnitude
round to it, no matter where they were found.

* `spacing_eq` and `roundHalfEven_congr` are the two halves of `nearestRank_congr`.
* `nearestRank_magnitude` says that magnitudes are rounded to themselves.
* `shortest_readsBack` is about the digits that are printed.
-/

namespace Barline.Double

/-! ## Scaled fractions -/

/-- A power with an exponent of either sign is a fraction. -/
theorem pow_toNat_div_pow_toNat (b : Rat) (e : Int) : b ^ e.toNat / b ^ (-e).toNat = b ^ e := by
  rcases e.eq_nat_or_neg with ⟨n, rfl | rfl⟩
  · simp
  · simp

theorem twoPow_div_twoPow (e : Int) : (twoPow e.toNat : Rat) / twoPow (-e).toNat = 2 ^ e := by
  simpa [twoPow] using pow_toNat_div_pow_toNat 2 e

theorem tenPow_div_tenPow (e : Int) : (tenPow e.toNat : Rat) / tenPow (-e).toNat = 10 ^ e := by
  simpa [tenPow] using pow_toNat_div_pow_toNat 10 e

/-- To scale a fraction is to compare it with a power of two. -/
theorem scaled_lt_iff {n d m : Nat} {e : Int} (hd : 0 < d) :
    n * twoPow (-e).toNat < m * (d * twoPow e.toNat) ↔ (n : Rat) / d < m * 2 ^ e := by
  have hd' : (0 : Rat) < d := by exact_mod_cast hd
  have hpow : (0 : Rat) < twoPow (-e).toNat := by exact_mod_cast twoPow_pos _
  rw [← twoPow_div_twoPow, mul_div_assoc', div_lt_div_iff₀ hd' hpow, mul_assoc, mul_comm (twoPow e.toNat : Rat)]
  exact_mod_cast Iff.rfl

/-- The logarithm of a fraction is known up to one from those of its parts. -/
theorem log_div_bounds {n d : Nat} (hn : 0 < n) (hd : 0 < d) :
    (n.log2 : Int) - d.log2 - 1 ≤ Int.log 2 ((n : Rat) / d) ∧
      Int.log 2 ((n : Rat) / d) ≤ (n.log2 : Int) - d.log2 := by
  have hn' : (0 : Rat) < n := by exact_mod_cast hn
  have hd' : (0 : Rat) < d := by exact_mod_cast hd
  have hpos : (0 : Rat) < (n : Rat) / d := div_pos hn' hd'
  have hnlow : (2 : Rat) ^ (n.log2 : Int) ≤ n := by exact_mod_cast Nat.log2_self_le hn.ne'
  have hdlow : (2 : Rat) ^ (d.log2 : Int) ≤ d := by exact_mod_cast Nat.log2_self_le hd.ne'
  have hnhigh : (n : Rat) < 2 ^ ((n.log2 : Int) + 1) := by exact_mod_cast @Nat.lt_log2_self n
  have hdhigh : (d : Rat) < 2 ^ ((d.log2 : Int) + 1) := by exact_mod_cast @Nat.lt_log2_self d
  -- the numerator is compared from below with the denominator from above, and the other way round
  constructor
  · refine (Int.zpow_le_iff_le_log one_lt_two hpos).1 ?_
    rw [le_div_iff₀ hd']
    calc ((2 : Nat) : Rat) ^ ((n.log2 : Int) - d.log2 - 1) * d
        ≤ 2 ^ ((n.log2 : Int) - d.log2 - 1) * 2 ^ ((d.log2 : Int) + 1) := by
          exact mul_le_mul_of_nonneg_left hdhigh.le (zpow_nonneg zero_le_two _)
      _ = 2 ^ (n.log2 : Int) := by
          rw [← zpow_add₀ two_ne_zero]
          congr 1
          ring
      _ ≤ n := hnlow
  · refine Int.lt_add_one_iff.1 ((Int.lt_zpow_iff_log_lt one_lt_two hpos).1 ?_)
    rw [div_lt_iff₀ hd']
    calc (n : Rat) < 2 ^ ((n.log2 : Int) + 1) := hnhigh
      _ = 2 ^ ((n.log2 : Int) - d.log2 + 1) * 2 ^ (d.log2 : Int) := by
          rw [← zpow_add₀ two_ne_zero]
          congr 1
          ring
      _ ≤ ((2 : Nat) : Rat) ^ ((n.log2 : Int) - d.log2 + 1) * d := by
          exact mul_le_mul_of_nonneg_left hdlow (zpow_nonneg zero_le_two _)

/-- The spacing of the doubles around a fraction is that of their power of two, down to that of the subnormal ones. -/
theorem spacing_eq {n d : Nat} (hn : 0 < n) (hd : 0 < d) :
    spacing n d = max (Int.log 2 ((n : Rat) / d) - 52) (-1074) := by
  rcases log_div_bounds hn hd with ⟨hlow, hhigh⟩
  have hpos : (0 : Rat) < (n : Rat) / d := div_pos (by exact_mod_cast hn) (by exact_mod_cast hd)
  -- one comparison decides between the two powers that are left
  have htest : n * twoPow (-((n.log2 : Int) - d.log2 - 52)).toNat <
        twoPow 52 * (d * twoPow ((n.log2 : Int) - d.log2 - 52).toNat) ↔
      Int.log 2 ((n : Rat) / d) < (n.log2 : Int) - d.log2 := by
    have hpower : (twoPow 52 : Rat) * 2 ^ ((n.log2 : Int) - d.log2 - 52) =
        ((2 : Nat) : Rat) ^ ((n.log2 : Int) - d.log2) := by
      have hfixed : (twoPow 52 : Rat) = 2 ^ (52 : Int) := by exact_mod_cast rfl
      rw [hfixed, ← zpow_add₀ two_ne_zero]
      push_cast
      congr 1
      ring
    rw [scaled_lt_iff hd, hpower, Int.lt_zpow_iff_log_lt one_lt_two hpos]
  unfold spacing
  simp only [htest]
  split <;> congr 1 <;> omega

/-! ## Half to even -/

theorem roundHalfEven_mul_left {k n d : Nat} (hk : 0 < k) :
    roundHalfEven (k * n) (k * d) = roundHalfEven n d := by
  have hleft : 2 * (k * (n % d)) = k * (2 * (n % d)) := Nat.mul_left_comm 2 k (n % d)
  simp only [roundHalfEven, Nat.mul_div_mul_left _ _ hk, Nat.mul_mod_mul_left, hleft, Nat.mul_lt_mul_left hk]

/-- Equal fractions are rounded to the same whole number. -/
theorem roundHalfEven_congr {n d n' d' : Nat} (hd : 0 < d) (hd' : 0 < d') (h : n * d' = n' * d) :
    roundHalfEven n d = roundHalfEven n' d' :=
  calc roundHalfEven n d = roundHalfEven (d' * n) (d' * d) := (roundHalfEven_mul_left hd').symm
    _ = roundHalfEven (d * n') (d * d') := by rw [mul_comm d' n, mul_comm d n', h, mul_comm d' d]
    _ = roundHalfEven n' d' := roundHalfEven_mul_left hd

theorem roundHalfEven_mul_right {m d : Nat} (hd : 0 < d) : roundHalfEven (m * d) d = m := by
  simp [roundHalfEven, hd]

/-! ## Ranks -/

theorem nearestRank_zero (d : Nat) : nearestRank 0 d = 0 :=
  if_pos rfl

theorem nearestRank_of_pos {n d : Nat} (hn : 0 < n) :
    nearestRank n d = (spacing n d + 1074).toNat * twoPow 52 +
      roundHalfEven (n * twoPow (-spacing n d).toNat) (d * twoPow (spacing n d).toNat) := by
  simp only [nearestRank]
  exact if_neg hn.ne'

/-- Equal fractions have the same nearest magnitude. -/
theorem nearestRank_congr {n d n' d' : Nat} (hd : 0 < d) (hd' : 0 < d') (h : n * d' = n' * d) :
    nearestRank n d = nearestRank n' d' := by
  rcases Nat.eq_zero_or_pos n with rfl | hn
  · obtain rfl : n' = 0 := by
      rcases Nat.mul_eq_zero.1 (h.symm.trans (Nat.zero_mul d')) with hzero | hzero
      · exact hzero
      · exact absurd hzero hd.ne'
    rw [nearestRank_zero, nearestRank_zero]
  · have hn' : 0 < n' := by
      rcases Nat.eq_zero_or_pos n' with rfl | hpos
      · rw [Nat.zero_mul] at h
        exact absurd h (Nat.mul_pos hn hd').ne'
      · exact hpos
    have hvalue : (n : Rat) / d = n' / d' := by
      rw [div_eq_div_iff (by exact_mod_cast hd.ne') (by exact_mod_cast hd'.ne')]
      exact_mod_cast h
    have hspacing : spacing n d = spacing n' d' := by
      rw [spacing_eq hn hd, spacing_eq hn' hd', hvalue]
    -- scaled alike, the fractions are equal again
    have hscaled (a b : Nat) : roundHalfEven (n * twoPow a) (d * twoPow b) =
        roundHalfEven (n' * twoPow a) (d' * twoPow b) := by
      refine roundHalfEven_congr (Nat.mul_pos hd (twoPow_pos b)) (Nat.mul_pos hd' (twoPow_pos b)) ?_
      calc n * twoPow a * (d' * twoPow b) = n * d' * (twoPow a * twoPow b) := by ring
        _ = n' * d * (twoPow a * twoPow b) := by rw [h]
        _ = n' * twoPow a * (d * twoPow b) := by ring
    rw [nearestRank_of_pos hn, nearestRank_of_pos hn', hspacing, hscaled]

theorem mantissa_pos {rank : Nat} (h : 0 < rank) : 0 < mantissa rank := by
  unfold mantissa
  split
  · exact h
  · exact Nat.add_pos_left (twoPow_pos 52) _

theorem numerator_pos {rank : Nat} (h : 0 < rank) : 0 < numerator rank :=
  Nat.mul_pos (mantissa_pos h) (twoPow_pos _)

theorem denominator_pos (rank : Nat) : 0 < denominator rank :=
  twoPow_pos _

theorem magnitude_nonneg (rank : Nat) : 0 ≤ magnitude rank := by
  rw [magnitude, Rat.mkRat_eq_div]
  exact div_nonneg (by exact_mod_cast Nat.zero_le _) (by exact_mod_cast Nat.zero_le _)

theorem numerator_div_denominator (rank : Nat) :
    (numerator rank : Rat) / denominator rank = mantissa rank * 2 ^ exponent rank := by
  rw [← twoPow_div_twoPow, mul_div_assoc', numerator, denominator, Nat.cast_mul]

/-- A factor that is a power of two adds its exponent to a logarithm. -/
theorem log_mul_zpow {m : Rat} (hm : 0 < m) (e : Int) : Int.log 2 (m * 2 ^ e) = Int.log 2 m + e := by
  have hpower : (0 : Rat) < 2 ^ e := zpow_pos two_pos e
  have hle : ∀ x : Int, x ≤ Int.log 2 (m * 2 ^ e) ↔ x ≤ Int.log 2 m + e := by
    intro x
    rw [← Int.zpow_le_iff_le_log one_lt_two (mul_pos hm hpower), ← sub_le_iff_le_add,
      ← Int.zpow_le_iff_le_log one_lt_two hm, Nat.cast_ofNat, zpow_sub₀ two_ne_zero, div_le_iff₀ hpower]
  exact le_antisymm ((hle _).1 le_rfl) ((hle _).2 le_rfl)

theorem log_numerator_div_denominator {rank : Nat} (h : 0 < rank) :
    Int.log 2 ((numerator rank : Rat) / denominator rank) = Nat.log 2 (mantissa rank) + exponent rank := by
  have hm : (0 : Rat) < mantissa rank := by exact_mod_cast mantissa_pos h
  rw [numerator_div_denominator, log_mul_zpow hm, Int.log_natCast]

/-- The spacing around a magnitude is its own power of two. -/
theorem spacing_magnitude {rank : Nat} (h : 0 < rank) :
    spacing (numerator rank) (denominator rank) = exponent rank := by
  rw [spacing_eq (numerator_pos h) (denominator_pos rank), log_numerator_div_denominator h]
  by_cases hsub : rank < twoPow 52
  · -- a subnormal magnitude is below all powers of two with a spacing of their own
    have hexponent : exponent rank = -1074 := by
      simp only [exponent, Nat.div_eq_of_lt hsub]
      rfl
    have hlog : Nat.log 2 (mantissa rank) < 52 := by
      rw [mantissa, if_pos hsub]
      exact Nat.log_lt_of_lt_pow h.ne' hsub
    omega
  · have hquotient : 1 ≤ rank / twoPow 52 := (Nat.one_le_div_iff (twoPow_pos 52)).2 (not_lt.1 hsub)
    have hexponent : -1074 ≤ exponent rank := by
      simp only [exponent]
      omega
    have hlog : Nat.log 2 (mantissa rank) = 52 := by
      have hmod : rank % twoPow 52 < twoPow 52 := Nat.mod_lt _ (twoPow_pos 52)
      rw [mantissa, if_neg hsub]
      refine Nat.log_eq_of_pow_le_of_lt_pow (Nat.le_add_right _ _) ?_
      calc twoPow 52 + rank % twoPow 52 < twoPow 52 + twoPow 52 := Nat.add_lt_add_left hmod _
        _ = 2 ^ 53 := rfl
    omega

/-- Magnitudes are rounded to themselves. -/
theorem nearestRank_magnitude (rank : Nat) : nearestRank (numerator rank) (denominator rank) = rank := by
  rcases Nat.eq_zero_or_pos rank with rfl | h
  · simp [numerator, mantissa, nearestRank, twoPow_pos]
  · have hscaled : numerator rank * twoPow (-exponent rank).toNat =
        mantissa rank * (denominator rank * twoPow (exponent rank).toNat) := by
      simp only [numerator, denominator]
      ring
    have hpos : 0 < denominator rank * twoPow (exponent rank).toNat := Nat.mul_pos (denominator_pos rank) (twoPow_pos _)
    rw [nearestRank_of_pos (numerator_pos h), spacing_magnitude h, hscaled,
      roundHalfEven_mul_right hpos]
    -- what is left is the number of magnitudes below this one, block by block
    simp only [exponent, mantissa]
    split
    case isTrue hsub =>
      simp [Nat.div_eq_of_lt hsub]
    case isFalse hnot =>
      have hquotient : 1 ≤ rank / twoPow 52 := (Nat.one_le_div_iff (twoPow_pos 52)).2 (not_lt.1 hnot)
      have hblock : (((max 1 (rank / twoPow 52) : Nat) : Int) - 1075 + 1074).toNat = rank / twoPow 52 - 1 := by
        omega
      have hrank := Nat.div_add_mod' rank (twoPow 52)
      rw [hblock, Nat.sub_mul, Nat.one_mul]
      have hle : twoPow 52 ≤ rank / twoPow 52 * twoPow 52 := Nat.le_mul_of_pos_left _ hquotient
      omega

/-! ## Digits that read back -/

theorem readsBack_of_onGrid? {rank digits : Nat} {x : Expansion} (h : onGrid? rank digits = some x) :
    x.ReadsBack rank := by
  simp only [onGrid?] at h
  -- whichever of the two neighbours is taken has passed the test
  split at h
  case isTrue hbelow =>
    split at h
    case isTrue habove =>
      split at h
      · exact Option.some.inj h ▸ hbelow
      · split at h
        · exact Option.some.inj h ▸ habove
        · split at h
          · exact Option.some.inj h ▸ hbelow
          · exact Option.some.inj h ▸ habove
    case isFalse => exact Option.some.inj h ▸ hbelow
  case isFalse =>
    split at h
    case isTrue habove => exact Option.some.inj h ▸ habove
    case isFalse => cases h

/-- The exact expansion has the value of the magnitude: a half is five tenths. -/
theorem exactExpansion_readsBack (rank : Nat) : (exactExpansion rank).ReadsBack rank := by
  refine Eq.trans (nearestRank_congr (tenPow_pos _) (denominator_pos rank) ?_) (nearestRank_magnitude rank)
  have htens : ∀ k : Nat, tenPow k = Nat.pow 5 k * twoPow k := fun k => Nat.mul_pow 5 2 k
  simp only [exactExpansion, numerator, denominator]
  rcases le_total 0 (exponent rank) with h | h
  · have hzero : (-exponent rank).toNat = 0 := Int.toNat_of_nonpos (by omega)
    simp [min_eq_right h, hzero, twoPow, tenPow]
  · have hzero : (exponent rank).toNat = 0 := Int.toNat_of_nonpos h
    simp only [min_eq_left h, hzero, htens, twoPow, Nat.pow_eq, pow_zero]
    ring

/-- The digits that are printed of a magnitude round to it. -/
theorem shortest_readsBack (rank : Nat) : (shortest rank).ReadsBack rank := by
  unfold shortest
  cases h : (List.range 17).findSome? fun i => onGrid? rank (i + 1) with
  | none => exact exactExpansion_readsBack rank
  | some x =>
    rcases List.exists_of_findSome?_eq_some h with ⟨i, _, hi⟩
    exact readsBack_of_onGrid? hi

/-! ## Values of expansions -/

/-- The magnitude that digits and an exponent stand for. -/
def Expansion.value (x : Expansion) : Rat :=
  x.digits * 10 ^ x.exponent

/-- Expansions of one value read back as one magnitude. -/
theorem rank_eq_of_value_eq {x y : Expansion} {rank rank' : Nat} (hx : x.ReadsBack rank) (hy : y.ReadsBack rank')
    (h : x.value = y.value) : rank = rank' := by
  have hvalue : ∀ z : Expansion,
      z.value = (z.digits * tenPow z.exponent.toNat : Nat) / tenPow (-z.exponent).toNat := by
    intro z
    rw [Expansion.value, ← tenPow_div_tenPow, Nat.cast_mul, mul_div_assoc]
  -- what reads back is the fraction that has this value
  have hx' : (tenPow (-x.exponent).toNat : Rat) ≠ 0 := by exact_mod_cast (tenPow_pos _).ne'
  have hy' : (tenPow (-y.exponent).toNat : Rat) ≠ 0 := by exact_mod_cast (tenPow_pos _).ne'
  rw [hvalue, hvalue, div_eq_div_iff hx' hy'] at h
  have hcongr := nearestRank_congr (tenPow_pos _) (tenPow_pos _) (by exact_mod_cast h)
  exact hx.symm.trans (hcongr.trans hy)

theorem digits_pos_of_readsBack {x : Expansion} {rank : Nat} (hrank : 0 < rank) (h : x.ReadsBack rank) :
    0 < x.digits := by
  refine Nat.pos_of_ne_zero ?_
  intro hzero
  rw [Expansion.ReadsBack, hzero, Nat.zero_mul, nearestRank_zero] at h
  exact hrank.ne h

end Barline.Double
