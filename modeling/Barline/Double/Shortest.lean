import Barline.Double.Rounding

/-!
# Shortest digits — the fewest decimal digits that read back

A positive double lies between two neighbours on every decimal grid. Grids of one, two, up to seventeen
significant digits are tried in turn; the first on which one of the two neighbours rounds back to the double
gives the digits. When both do, the nearer one is taken, and of two equally near ones the even one.

Should no grid do, the exact decimal expansion is used, which always reads back.
-/

namespace Barline.Double

/-- The magnitude `digits · 10 ^ exponent`. -/
structure Expansion where
  digits : Nat
  exponent : Int
  deriving DecidableEq, Repr

namespace Expansion

/-- Whether the magnitude of an expansion rounds to the one with the given rank. -/
def ReadsBack (x : Expansion) (rank : Nat) : Prop :=
  nearestRank (x.digits * tenPow x.exponent.toNat) (tenPow (-x.exponent).toNat) = rank

instance (x : Expansion) (rank : Nat) : Decidable (x.ReadsBack rank) :=
  inferInstanceAs (Decidable (_ = _))

end Expansion

/-- The least `p` with `n / d < 10 ^ p`, for positive `n` and `d`. -/
def pointPosition (n d : Nat) : Int :=
  let p : Int := (decimalWidth n : Int) - decimalWidth d
  if n * tenPow (-p).toNat < d * tenPow p.toNat then p else p + 1

/-- The expansion on the grid of the given number of digits that reads back, if there is one. -/
def onGrid? (rank : Nat) (digits : Nat) : Option Expansion :=
  let n := numerator rank
  let d := denominator rank
  let e := pointPosition n d - digits
  let n' := n * tenPow (-e).toNat
  let d' := d * tenPow e.toNat
  let below : Expansion := ⟨n' / d', e⟩
  let above : Expansion := ⟨n' / d' + 1, e⟩
  if below.ReadsBack rank then
    if above.ReadsBack rank then
      let fromBelow := n' - below.digits * d'
      let fromAbove := above.digits * d' - n'
      if fromBelow < fromAbove then some below
      else if fromAbove < fromBelow then some above
      else if below.digits % 2 = 0 then some below else some above
    else some below
  else if above.ReadsBack rank then some above
  else none

/-- The exact decimal expansion of a magnitude: a half is five tenths. -/
def exactExpansion (rank : Nat) : Expansion :=
  let e := exponent rank
  ⟨mantissa rank * twoPow e.toNat * Nat.pow 5 (-e).toNat, min e 0⟩

/-- The shortest expansion that reads back. -/
def shortest (rank : Nat) : Expansion :=
  ((List.range 17).findSome? fun i => onGrid? rank (i + 1)).getD (exactExpansion rank)

end Barline.Double
