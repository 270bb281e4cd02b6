import Barline.Proofs.Double.Whole
import Barline.Proofs.Program.Distinct

/-!
# Equal values — what counts as the same

Two values may be equal and not be the same: numbers are compared by their values, whatever their kinds, truth values
count as one and zero, and mappings are equal whatever the order of their entries. What is equal need not be written in
the same way: a double with a fraction and the equal quotient are not, and neither are a truth value and a number.

* `Value.Equal` is equality, `Value.WrittenAlike` says which equal values have one token in a program.
* `Value.Equal.isWritable_eq` says that of two equal values both can be written or none can, as all doubles are short.
* `Value.WrittenAlike.token_eq` says that what is written alike has the same token, and `Number.token_eq_iff` that no
  other numbers of one value have.
-/

namespace Barline

/-! ## Doubles are short -/

namespace Double

variable {rank : Nat}

theorem exponent_lt (h : rank < rankBound) : exponent rank < 972 := by
  have hblock : rank / twoPow 52 < 2047 := Nat.div_lt_of_lt_mul (by rwa [rankBound, Nat.mul_comm] at h)
  unfold exponent
  omega

theorem mantissa_lt (rank : Nat) : mantissa rank < twoPow 53 := by
  have hdouble : twoPow 53 = twoPow 52 + twoPow 52 := rfl
  have hpos : 0 < twoPow 52 := twoPow_pos 52
  unfold mantissa
  split
  · omega
  · have hmod := Nat.mod_lt rank hpos
    omega

theorem numerator_lt (h : rank < rankBound) : numerator rank < twoPow 1024 := by
  have hexponent := exponent_lt h
  calc numerator rank < twoPow 53 * twoPow (exponent rank).toNat :=
        Nat.mul_lt_mul_of_pos_right (mantissa_lt rank) (twoPow_pos _)
    _ ≤ twoPow 53 * twoPow 971 := Nat.mul_le_mul_left _ (twoPow_le_twoPow (by omega))
    _ = twoPow 1024 := (twoPow_add 53 971).symm

theorem denominator_le (rank : Nat) : denominator rank ≤ twoPow 1074 := by
  refine twoPow_le_twoPow ?_
  unfold exponent
  omega

theorem isWritable_magnitude (h : rank < rankBound) : Literal.isWritable (magnitude rank) = true := by
  -- in lowest terms, the numerator and the denominator are not longer than they were
  have hpower : twoPow 1074 < tenPow Numeral.digitLimit := by decide +kernel
  have hdenominator : (denominator rank : Int) ≠ 0 := Int.natCast_ne_zero.2 (denominator_pos rank).ne'
  have hnum : (magnitude rank).num ∣ (numerator rank : Int) := by
    rw [magnitude, Rat.mkRat_eq_divInt]
    exact Rat.num_dvd _ hdenominator
  have hden : ((magnitude rank).den : Int) ∣ denominator rank := by
    rw [magnitude, Rat.mkRat_eq_divInt]
    exact Rat.den_dvd _ _
  rw [Literal.isWritable, Numeral.isWritable, Numeral.isWritable, Bool.and_eq_true, decide_eq_true_iff,
    decide_eq_true_iff]
  constructor
  · rcases Nat.eq_zero_or_pos (numerator rank) with hzero | hpos
    · rw [magnitude, hzero, Int.ofNat_zero, Rat.zero_mkRat]
      exact tenPow_pos _
    · have hle := Nat.le_of_dvd hpos (Int.natAbs_dvd_natAbs.2 hnum)
      exact hle.trans_lt ((numerator_lt h).trans ((twoPow_lt_twoPow (by decide)).trans hpower))
  · have hle := Nat.le_of_dvd (denominator_pos rank) (Int.natCast_dvd_natCast.1 hden)
    exact (hle.trans (denominator_le rank)).trans_lt hpower

/-- A finite double has no long number in it. -/
theorem isWritable_of_toRat? {d : Double} {q : Rat} (h : d.toRat? = some q) : Literal.isWritable q = true := by
  have hneg : ∀ q : Rat, Literal.isWritable (-q) = Literal.isWritable q := by
    intro q
    simp [Literal.isWritable, Numeral.isWritable]
  cases d with
  | nan => cases h
  | infinite negative => cases h
  | finite negative rank =>
    obtain rfl := Option.some.inj h
    split
    · rw [hneg, isWritable_magnitude rank.isLt]
    · exact isWritable_magnitude rank.isLt

/-- A magnitude determines its rank, as it is rounded to itself. -/
theorem magnitude_injective : Function.Injective magnitude := by
  intro rank rank' h
  have hcross := (Rat.mkRat_eq_iff (denominator_pos rank).ne' (denominator_pos rank').ne').1 h
  rw [← nearestRank_magnitude rank, ← nearestRank_magnitude rank']
  exact nearestRank_congr (denominator_pos rank) (denominator_pos rank') (by exact_mod_cast hcross)

/-- Finite doubles of one value are the same, unless the value is zero, which has two signs. -/
theorem eq_of_toRat?_eq {d d' : Double} {q : Rat} (hd : d.toRat? = some q) (hd' : d'.toRat? = some q) (hq : q ≠ 0) :
    d = d' := by
  cases d with
  | nan => cases hd
  | infinite negative => cases hd
  | finite negative rank =>
    cases d' with
    | nan => cases hd'
    | infinite negative' => cases hd'
    | finite negative' rank' =>
      have hvalue := (Option.some.inj hd).trans (Option.some.inj hd').symm
      have hpos := magnitude_nonneg rank
      have hpos' := magnitude_nonneg rank'
      have hne := (Option.some.inj hd).trans_ne hq
      -- equal and not zero, they have one sign, and so one magnitude
      obtain ⟨rfl, hmagnitude⟩ : negative = negative' ∧ magnitude rank = magnitude rank' := by
        cases negative <;> cases negative' <;> simp only [if_true, if_false, Bool.false_eq_true] at hvalue hne
        · exact ⟨rfl, hvalue⟩
        · exact absurd (le_antisymm (by linarith) hpos) hne
        · exact absurd (neg_eq_zero.2 (le_antisymm (by linarith) hpos)) hne
        · exact ⟨rfl, neg_injective hvalue⟩
      rw [Fin.ext (magnitude_injective hmagnitude)]

end Double

/-! ## Numbers -/

namespace Number

variable {x y : Number} {q : Rat}

theorem isWritable_of_toRat? (h : x.toRat? = some q) : x.isWritable = Literal.isWritable q := by
  cases x with
  | whole n =>
    obtain rfl : (n : Rat) = q := Option.some.inj h
    have hone : Numeral.isWritable 1 = true := by decide +kernel
    simp [isWritable, Literal.isWritable, hone]
  | double d => exact (Double.isWritable_of_toRat? h).symm
  | ratio r => exact congrArg Literal.isWritable (Option.some.inj h)

/-- Numbers of one value are finite and have it, or are the same infinity. -/
theorem cases_of_sameValue (h : x.sameValue y = true) :
    (∃ q, x.toRat? = some q ∧ y.toRat? = some q) ∨ ∃ b, x = .double (.infinite b) ∧ y = .double (.infinite b) := by
  unfold sameValue at h
  split at h
  case h_1 p q hx hy =>
    obtain rfl : p = q := of_decide_eq_true h
    exact Or.inl ⟨p, hx, hy⟩
  case h_2 => cases h
  case h_3 => cases h
  case h_4 =>
    split at h
    case h_1 a b _ _ =>
      obtain rfl : a = b := of_decide_eq_true h
      exact Or.inr ⟨a, rfl, rfl⟩
    case h_2 => cases h

theorem isWritable_of_sameValue (h : x.sameValue y = true) : x.isWritable = y.isWritable := by
  rcases cases_of_sameValue h with ⟨q, hx, hy⟩ | ⟨b, rfl, rfl⟩
  · rw [isWritable_of_toRat? hx, isWritable_of_toRat? hy]
  · rfl

theorem toRat?_of_toInt? {n : Int} (h : x.toInt? = some n) : x.toRat? = some (n : Rat) := by
  rcases Option.bind_eq_some_iff.1 h with ⟨q, hq, hn⟩
  by_cases hden : q.den = 1
  · obtain rfl : q.num = n := by simpa [hden] using hn
    rw [hq, (Rat.den_eq_one_iff q).1 hden]
  · simp [hden] at hn

/-- Numbers without a fraction have the token of the whole number. -/
theorem token_of_toInt? {n : Int} (h : x.toInt? = some n) : x.token = toString n := by
  cases x with
  | whole m =>
    obtain rfl : m = n := by simpa [toInt?, toRat?] using h
    rfl
  | double d => simp only [token, h]
  | ratio q =>
    obtain ⟨hden, hnum⟩ : q.den = 1 ∧ q.num = n := by simpa [toInt?, toRat?] using h
    exact (if_pos hden).trans (congrArg toString hnum)

/-- Numbers of one value have one token exactly if they are the same or have no fraction. -/
theorem token_eq_iff (h : x.sameValue y = true) :
    x.token = y.token ↔ x = y ∨ ∃ n, x.toInt? = some n ∧ y.toInt? = some n := by
  constructor
  · intro htoken
    rcases cases_of_sameValue h with ⟨q, hx, hy⟩ | ⟨b, rfl, rfl⟩
    · by_cases hden : q.den = 1
      · exact Or.inr ⟨q.num, by simp [toInt?, hx, hden], by simp [toInt?, hy, hden]⟩
      · -- with a fraction there is one text for quotients and another for doubles
        have hzero : q ≠ 0 := by
          rintro rfl
          exact hden rfl
        have hwhole : ∀ n : Int, (n : Rat) ≠ q := by
          rintro n rfl
          exact hden (Rat.den_intCast n)
        have hdistinct : ∀ d : Double, d.toRat? = some q → (double d).token ≠ Literal.display q := by
          intro d hd htoken
          cases d with
          | nan => cases hd
          | infinite negative => cases hd
          | finite negative rank =>
            have hfraction : toInt? (double (.finite negative rank)) = none := by
              simp only [toInt?, toRat?, hd, Option.bind_some, if_neg hden]
            simp only [token, hfraction] at htoken
            exact Literal.display_ne_finite q negative rank htoken.symm
        left
        cases x with
        | whole n => exact absurd (Option.some.inj hx) (hwhole n)
        | ratio p =>
          obtain rfl : p = q := Option.some.inj hx
          cases y with
          | whole n => exact absurd (Option.some.inj hy) (hwhole n)
          | ratio r => exact congrArg ratio (Option.some.inj hy).symm
          | double d => exact absurd htoken.symm (hdistinct d hy)
        | double d =>
          cases y with
          | whole n => exact absurd (Option.some.inj hy) (hwhole n)
          | ratio r =>
            obtain rfl : r = q := Option.some.inj hy
            exact absurd htoken (hdistinct d hx)
          | double d' => exact congrArg double (Double.eq_of_toRat?_eq hx hy hzero)
    · exact Or.inl rfl
  · rintro (rfl | ⟨n, hx, hy⟩)
    · rfl
    · rw [token_of_toInt? hx, token_of_toInt? hy]

end Number

/-! ## Values -/

/-- Keys are equal if they are the same or name the same entry. -/
def Key.Equal (k l : Key) : Prop :=
  k = l ∨ k.same l = true

theorem Number.isWritable_truth (b : Bool) : (whole (if b then 1 else 0)).isWritable = true := by
  revert b
  decide +kernel

theorem Key.isWritable_of_number? {k : Key} {x : Number} (h : k.number? = some x) : k.isWritable = x.isWritable := by
  cases k with
  | bool b =>
    obtain rfl := Option.some.inj h
    exact (Number.isWritable_truth b).symm
  | number y => exact congrArg Number.isWritable (Option.some.inj h)
  | _ => cases h

theorem Key.Equal.isWritable_eq {k l : Key} (h : k.Equal l) : k.isWritable = l.isWritable := by
  rcases h with rfl | hsame
  · rfl
  · unfold same at hsame
    split at hsame
    case h_1 x y hk hl =>
      rw [isWritable_of_number? hk, isWritable_of_number? hl, Number.isWritable_of_sameValue hsame]
    case h_2 => rw [of_decide_eq_true hsame]
    case h_3 => cases hsame

namespace Value

mutual

/-- Values are equal if they are the same or numbers of one value, or if they are lists of equal values one by one or
mappings with equal values under equal keys, in any order. -/
inductive Equal : Value → Value → Prop where
  | same (v : Value) : Equal v v
  | number {v w : Value} (h : v.SameNumber w) : Equal v w
  | list {vs ws : List Value} (h : EqualItems vs ws) : Equal (.list vs) (.list ws)
  | mapping {es fs gs : List (Key × Value)} (h : EqualEntries es fs) (order : fs.Perm gs) :
      Equal (.mapping es) (.mapping gs)

inductive EqualItems : List Value → List Value → Prop where
  | nil : EqualItems [] []
  | cons {v w : Value} {vs ws : List Value} (h : Equal v w) (rest : EqualItems vs ws) : EqualItems (v :: vs) (w :: ws)

inductive EqualEntries : List (Key × Value) → List (Key × Value) → Prop where
  | nil : EqualEntries [] []
  | cons {k l : Key} {v w : Value} {es fs : List (Key × Value)} (key : k.Equal l) (h : Equal v w)
      (rest : EqualEntries es fs) : EqualEntries ((k, v) :: es) ((l, w) :: fs)

end

theorem entriesAreWritable_eq_all (entries : List (Key × Value)) :
    entriesAreWritable entries = entries.all fun entry => entry.1.isWritable && entry.2.isWritable := by
  induction entries with
  | nil => rfl
  | cons entry rest ih => rw [entriesAreWritable, List.all_cons, ih]

theorem isWritable_of_number? {v : Value} {x : Number} (h : v.number? = some x) : v.isWritable = x.isWritable := by
  cases v with
  | bool b =>
    obtain rfl := Option.some.inj h
    exact (Number.isWritable_truth b).symm
  | number y =>
    obtain rfl := Option.some.inj h
    rfl
  | _ => cases h

theorem SameNumber.isWritable_eq {v w : Value} (h : v.SameNumber w) : v.isWritable = w.isWritable := by
  rcases h with ⟨x, y, hv, hw, hsame⟩
  rw [isWritable_of_number? hv, isWritable_of_number? hw, Number.isWritable_of_sameValue hsame]

mutual

/-- Of two equal values both can be written, or none can. -/
theorem Equal.isWritable_eq {v w : Value} : v.Equal w → v.isWritable = w.isWritable
  | .same _ => rfl
  | .number h => h.isWritable_eq
  | .list h => h.areWritable_eq
  | .mapping h order => by
    rw [isWritable, isWritable, h.entriesAreWritable_eq, entriesAreWritable_eq_all, entriesAreWritable_eq_all,
      order.all_eq]

theorem EqualItems.areWritable_eq {vs ws : List Value} : EqualItems vs ws → areWritable vs = areWritable ws
  | .nil => rfl
  | .cons h rest => by rw [areWritable, areWritable, h.isWritable_eq, rest.areWritable_eq]

theorem EqualEntries.entriesAreWritable_eq {es fs : List (Key × Value)} :
    EqualEntries es fs → entriesAreWritable es = entriesAreWritable fs
  | .nil => rfl
  | .cons key h rest => by
    rw [entriesAreWritable, entriesAreWritable, key.isWritable_eq, h.isWritable_eq, rest.entriesAreWritable_eq]

end

/-- Equal values that are written in the same way: the same value, or numbers without a fraction. -/
inductive WrittenAlike : Value → Value → Prop where
  | same (v : Value) : WrittenAlike v v
  | whole {x y : Number} {n : Int} (hx : x.toInt? = some n) (hy : y.toInt? = some n) :
      WrittenAlike (.number x) (.number y)

namespace WrittenAlike

variable {v w : Value}

theorem token_eq (h : v.WrittenAlike w) : v.token = w.token := by
  cases h with
  | same v => rfl
  | whole hx hy => exact congrArg Text.ofString ((Number.token_of_toInt? hx).trans (Number.token_of_toInt? hy).symm)

theorem equal (h : v.WrittenAlike w) : v.Equal w := by
  cases h with
  | same v => exact .same v
  | whole hx hy =>
    have hsame := Number.sameValue_of_toRat? (Number.toRat?_of_toInt? hx) (Number.toRat?_of_toInt? hy)
    exact .number ⟨_, _, rfl, rfl, hsame⟩

end WrittenAlike

end Value

end Barline
