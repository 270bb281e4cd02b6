import Barline.Double.Basic
import Barline.Numeral

/-!
# Rounding — the double nearest to an exact number

A positive fraction is scaled so that the spacing of the doubles around it becomes one, rounded there to the
nearest whole number with a half going to the even neighbour, and the result is counted as a rank. Values
that would get a rank beyond the last finite one round to infinity.
-/

namespace Barline.Double

/-- The whole number nearest to `n / d`; a half goes to the even neighbour. -/
def roundHalfEven (n d : Nat) : Nat :=
  let quotient := n / d
  let remainder := n % d
  if 2 * remainder < d then quotient
  else if d < 2 * remainder then quotient + 1
  else quotient + quotient % 2

/-- The exponent of the spacing of the doubles around `n / d`, for positive `n` and `d`. -/
def spacing (n d : Nat) : Int :=
  let e : Int := (n.log2 : Int) - d.log2 - 52
  let normal := if n * twoPow (-e).toNat < twoPow 52 * (d * twoPow e.toNat) then e - 1 else e
  max normal (-1074)

/-- The rank of the magnitude nearest to `n / d`, for positive `d`; the ranks go on beyond the last finite one. -/
def nearestRank (n d : Nat) : Nat :=
  if n = 0 then 0
  else
    let e := spacing n d
    (e + 1074).toNat * twoPow 52 + roundHalfEven (n * twoPow (-e).toNat) (d * twoPow e.toNat)

/-- The double with a sign and a rank, which is infinite for ranks beyond the last finite one. -/
def ofRank (negative : Bool) (rank : Nat) : Double :=
  if h : rank < rankBound then finite negative ⟨rank, h⟩ else infinite negative

/-- The double nearest to a rational number. -/
def nearest (q : Rat) : Double :=
  ofRank (decide (q < 0)) (nearestRank q.num.natAbs q.den)

/-- The double nearest to a rational number, unless it lies beyond all finite ones. -/
def approximate? (q : Rat) : Option Double :=
  match nearest q with
  | infinite _ => none
  | d => some d

/-- What is said of a rational number that lies beyond all finite doubles. -/
def tooLargeMessage : String := "integer division result too large for a float"

/-- The number of decimal digits of a natural number. -/
def decimalWidth (n : Nat) : Nat :=
  (Nat.toDigits 10 n).length

/-- The double nearest to a decimal. Decimals of more than 310 digits before the point are beyond every
double, and those with more than 330 zeros behind it round to zero, so no great power of ten is computed. -/
def ofDecimal (x : Numeral.Decimal) : Double :=
  let top : Int := decimalWidth x.coefficient + x.exponent
  if x.coefficient = 0 ∨ top < -330 then ofRank x.negative 0
  else if 310 < top then infinite x.negative
  else
    ofRank x.negative
      (nearestRank (x.coefficient * tenPow x.exponent.toNat) (tenPow (-x.exponent).toNat))

end Barline.Double
