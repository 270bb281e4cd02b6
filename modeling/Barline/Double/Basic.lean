import Barline.Power

/-!
# Doubles — binary floating-point numbers of 53 significant bits

The finite magnitudes are numbered upward from zero: the *rank* of a magnitude is the number of magnitudes
below it. Ranks below `2 ^ 52` are the subnormal ones, evenly spaced; above, every block of `2 ^ 52` ranks
spans one power of two and is twice as wide as the block before. So each number has one form only, the next
larger magnitude is the next rank, and a carry in rounding needs no care.
-/

namespace Barline

/-- One more than the largest rank of a finite magnitude. -/
def Double.rankBound : Nat := 2047 * twoPow 52

/-- A double: not a number, an infinity, or a sign with the rank of a finite magnitude. -/
inductive Double where
  | nan
  | infinite (negative : Bool)
  | finite (negative : Bool) (rank : Fin Double.rankBound)
  deriving DecidableEq, Repr

namespace Double

/-- The mantissa of the magnitude with a given rank. -/
def mantissa (rank : Nat) : Nat :=
  if rank < twoPow 52 then rank else twoPow 52 + rank % twoPow 52

/-- The power of two that the mantissa counts. -/
def exponent (rank : Nat) : Int :=
  (max 1 (rank / twoPow 52) : Nat) - 1075

/-- The numerator of the magnitude with a given rank, over `denominator`. -/
def numerator (rank : Nat) : Nat :=
  mantissa rank * twoPow (exponent rank).toNat

/-- The power of two under `numerator`. -/
def denominator (rank : Nat) : Nat :=
  twoPow (-exponent rank).toNat

def magnitude (rank : Nat) : Rat :=
  mkRat (numerator rank) (denominator rank)

def toRat? : Double → Option Rat
  | nan => none
  | infinite _ => none
  | finite negative rank => some (if negative then -magnitude rank else magnitude rank)

/-- At least zero: nothing is said of what is not a number, and minus zero counts as zero. -/
def isNonNegative : Double → Bool
  | nan => false
  | infinite negative => !negative
  | finite negative rank => !negative || rank.val = 0

/-- Zero of either sign. -/
def isZero : Double → Bool
  | finite _ rank => rank.val = 0
  | _ => false

end Double

end Barline
