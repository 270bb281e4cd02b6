import Barline.Literal

/-!
# Numbers — whole, binary floating-point and rational

The three kinds of number stay apart, because they print differently; what they are compared and rounded by is
their exact value, which infinities and what is not a number do not have.
-/

namespace Barline

/-- A number of one of the three kinds. -/
inductive Number where
  | whole (n : Int)
  | double (d : Double)
  | ratio (q : Rat)
  deriving DecidableEq, Repr

namespace Number

/-! ## Value -/

/-- The exact value of a number, if it is finite. -/
def toRat? : Number → Option Rat
  | whole n => some n
  | double d => d.toRat?
  | ratio q => some q

/-- A finite number without its fraction, rounded toward zero. -/
def truncated? (x : Number) : Option Int :=
  x.toRat?.map fun q => q.num.tdiv q.den

/-- The value of a number that is finite and has no fraction. -/
def toInt? (x : Number) : Option Int :=
  x.toRat?.bind fun q => if q.den = 1 then some q.num else none

/-- At least zero; never said of what is not a number. -/
def isNonNegative : Number → Bool
  | whole n => 0 ≤ n
  | double d => d.isNonNegative
  | ratio q => 0 ≤ q.num

/-- Less than one; never said of what is not a number. -/
def isLessThanOne : Number → Bool
  | double (.infinite negative) => negative
  | x => x.toRat?.any (· < 1)

def isZero : Number → Bool
  | whole n => n = 0
  | double d => d.isZero
  | ratio q => q.num = 0

/-- Equality of values, whatever the kinds. What is not a number equals nothing. -/
def sameValue (x y : Number) : Bool :=
  match x.toRat?, y.toRat? with
  | some p, some q => p = q
  | some _, none => false
  | none, some _ => false
  | none, none =>
    match x, y with
    | double (.infinite a), double (.infinite b) => a = b
    | _, _ => false

/-! ## Text -/

/-- The text of a number by itself. -/
def plain : Number → String
  | whole n => toString n
  | double d => d.text
  | ratio q => Literal.display q

/-- The text of a number inside a message. -/
def quoted : Number → String
  | ratio q => "Fraction(" ++ toString q.num ++ ", " ++ toString q.den ++ ")"
  | x => x.plain

/-- Whether a number can be written; a double always can. -/
def isWritable : Number → Bool
  | whole n => Numeral.isWritable n
  | double _ => true
  | ratio q => Literal.isWritable q

def typeName : Number → String
  | whole _ => "int"
  | double _ => "float"
  | ratio _ => "Fraction"

/-- The text of a number in a program: a double without a fraction is written as a whole number. -/
def token : Number → String
  | double d =>
    match toInt? (double d) with
    | some n => toString n
    | none => d.text
  | x => x.plain

end Number

end Barline
