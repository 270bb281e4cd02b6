import Barline.Double.Printer
import Barline.Text.Quoted

/-!
# Rational literals — exact numbers as text

A literal spells a rational number exactly: a quotient such as `1/3`, or a decimal such as `0.25` or `1e3`. It is
read with blanks around it. Written out, a rational number is a whole number or a quotient in lowest terms,
never a decimal, and reads back as itself unless one of its numerals is too long.

Every way in which a value may fail to be such a number is a cause of its own, with one wording.
-/

namespace Barline

/-- Why something is not an exact rational number. -/
inductive LiteralError where
  | boolean (b : Bool)
  | notFinite (d : Double)
  | emptyText
  | zeroDenominator (text : Text)
  | malformed (text : Text)
  | wrongType (typeName : String)
  | zeroDivisor (numerator : Int)
  deriving DecidableEq, Repr

namespace LiteralError

def message : LiteralError → String
  | boolean b => "Expected a rational literal, got boolean " ++ if b then "True" else "False"
  | notFinite d => "Expected a finite number, got " ++ d.text
  | emptyText => "Expected a rational literal, got an empty string"
  | zeroDenominator text => "Zero denominator in " ++ Text.quoted text
  | malformed text =>
    "Invalid rational literal " ++ Text.quoted text ++ " (expected e.g. '3', '0.5' or '1/3')"
  | wrongType typeName => "Expected a rational literal, got " ++ typeName
  | zeroDivisor numerator => "Zero denominator in " ++ toString numerator ++ "/0"

def isWritable : LiteralError → Bool
  | zeroDivisor numerator => Numeral.isWritable numerator
  | _ => true

end LiteralError

namespace Literal

/-! ## Writing -/

/-- A whole number, or a quotient in lowest terms. -/
def display (q : Rat) : String :=
  if q.den = 1 then toString q.num else toString q.num ++ "/" ++ toString q.den

def isWritable (q : Rat) : Bool :=
  Numeral.isWritable q.num && Numeral.isWritable q.den

/-! ## Reading -/

/-- What a literal spells, before it is given a value. -/
inductive Form where
  | quotient (numerator : Int) (denominator : Nat)
  | decimal (x : Numeral.Decimal)
  deriving DecidableEq, Repr

/-- Reads the form of a literal: a slash makes it a quotient of two digit groups. -/
def form? (cs : List Char) : Option Form :=
  let (negative, body) := Numeral.splitSign cs
  match Numeral.cutAt (· = '/') body with
  | (upper, some lower) => do
    let n ← Numeral.natural? upper
    let d ← Numeral.natural? lower
    some (.quotient (Numeral.signed negative n) d)
  | (_, none) => (Numeral.Decimal.unsigned? negative body).map .decimal

/-- The value of a form; a quotient by zero has none. -/
def Form.value? : Form → Option Rat
  | .quotient n d => if d = 0 then none else some (mkRat n d)
  | .decimal x => some x.toRat

/-- The value of a literal with blanks around it, however long its numerals are. -/
def parse (t : Text) : Except LiteralError Rat :=
  let cs := t.trimmed
  if cs.isEmpty then .error .emptyText
  else
    match form? cs with
    | none => .error (.malformed t)
    | some form =>
      match form.value? with
      | none => .error (.zeroDenominator t)
      | some q => .ok q

/-- Reads a literal with blanks around it. A literal with a numeral beyond the limit is malformed. -/
def read (t : Text) : Except LiteralError Rat :=
  if Numeral.groupsFit t.trimmed then parse t else .error (.malformed t)

/-- A double is read through its shortest text, so a tenth that was typed as a decimal stays a tenth. -/
def ofDouble : Double → Except LiteralError Rat
  | .finite negative rank =>
    if rank.val = 0 then .ok 0
    else
      let x := Double.shortest rank.val
      .ok (Numeral.Decimal.toRat ⟨negative, x.digits, x.exponent⟩)
  | d => .error (.notFinite d)

/-- The quotient of two whole numbers. -/
def quotient (n d : Int) : Except LiteralError Rat :=
  if d = 0 then .error (.zeroDivisor n) else .ok (Rat.divInt n d)

end Literal

end Barline
