import Barline.Power
import Barline.Text.Blank
import Barline.Text.Digit

/-!
# Numerals — digit groups, whole numbers and decimals

A *digit group* is one or more decimal digits of any script, in which single underscores may stand between
two digits. Every number that is typed as text is made of digit groups: a whole number is a group with an
optional sign, and a decimal is a sign, a group, a fraction group after a point and an exponent after the
letter e, of which some may be missing.

A decimal is read into a coefficient and a power of ten, so nothing is rounded and a huge exponent costs
nothing until it is used.

Long numerals are refused: a digit group is read, and a whole number is written, only within `digitLimit` digits.
The functions here know no such limit; where it holds, `groupsFit` and `isWritable` say whether it is kept.
-/

namespace Barline.Numeral

/-! ## Digit groups -/

/-- The digits of a digit group, most significant first. -/
def digits? : List Char → Option (List Nat)
  | [] => none
  | [c] => (Text.digitValue? c).map ([·])
  | c :: '_' :: rest => do
    let d ← Text.digitValue? c
    let ds ← digits? rest
    some (d :: ds)
  | c :: rest => do
    let d ← Text.digitValue? c
    let ds ← digits? rest
    some (d :: ds)

/-- The number that a list of digits denotes, most significant digit first. -/
def ofDigits (ds : List Nat) : Nat :=
  ds.foldl (fun n d => 10 * n + d) 0

def natural? (cs : List Char) : Option Nat :=
  (digits? cs).map ofDigits

/-! ## Signs and marks -/

/-- An optional sign and what follows it; `true` stands for a minus sign. -/
def splitSign : List Char → Bool × List Char
  | '+' :: rest => (false, rest)
  | '-' :: rest => (true, rest)
  | rest => (false, rest)

/-- What stands before the first mark, and what stands after it if there is one. -/
def cutAt {α : Type} (mark : α → Bool) : List α → List α × Option (List α)
  | [] => ([], none)
  | c :: rest =>
    if mark c then ([], some rest)
    else
      let (before, after) := cutAt mark rest
      (c :: before, after)

def signed (negative : Bool) (n : Nat) : Int :=
  if negative then -n else n

/-- A whole number: an optional sign and a digit group. -/
def whole? (cs : List Char) : Option Int :=
  let (negative, body) := splitSign cs
  (natural? body).map (signed negative)

/-! ## The length of numerals -/

/-- The greatest number of digits in a digit group that is read, and in a whole number that is written. -/
def digitLimit : Nat := 4300

/-- Whether all digit groups keep to the limit, when `n` digits of the first one have been read. -/
def groupsFitFrom (n : Nat) : List Char → Bool
  | [] => true
  | c :: rest =>
    if c = '_' then groupsFitFrom n rest
    else if Text.isDigit c then n < digitLimit && groupsFitFrom (n + 1) rest
    else groupsFitFrom 0 rest

/-- Whether every digit group among characters keeps to the limit; underscores do not count. -/
def groupsFit (cs : List Char) : Bool :=
  groupsFitFrom 0 cs

/-- Whether a whole number can be written within the limit. -/
def isWritable (n : Int) : Bool :=
  n.natAbs < tenPow digitLimit

/-- What is said of a whole number that is too long. -/
def tooLongMessage (size : String) : String :=
  "Exceeds the limit (" ++ toString digitLimit ++ " digits) for integer string conversion" ++ size ++
    "; use sys.set_int_max_str_digits() to increase the limit"

/-- What is said of a whole number that is too long to be written. -/
def tooLongToWrite : String :=
  tooLongMessage ""

/-- What is said of a digit group of the given length. -/
def tooLongToRead (digits : Nat) : String :=
  tooLongMessage (": value has " ++ toString digits ++ " digits")

/-- A whole number with blanks around it, within the limit. -/
def wholeText? (t : Text) : Option Int :=
  let cs := Text.trimBoth Text.isNumeralBlank t.chars
  if groupsFit cs then whole? cs else none

/-! ## Decimals -/

/-- The number `± coefficient · 10 ^ exponent`. The sign is kept apart so that minus zero differs from zero. -/
structure Decimal where
  negative : Bool
  coefficient : Nat
  exponent : Int
  deriving DecidableEq, Repr

namespace Decimal

def toRat (x : Decimal) : Rat :=
  let magnitude : Rat :=
    mkRat (x.coefficient * tenPow x.exponent.toNat : Nat) (tenPow (-x.exponent).toNat)
  if x.negative then -magnitude else magnitude

/-- The exponent of a decimal: a whole number after the letter e, zero when there is none. -/
def exponent? : Option (List Char) → Option Int
  | none => some 0
  | some cs => whole? cs

/-- The digits before the point and those after it. At least one of the two groups has to be there, and a
point may end the text. -/
def parts? : List Char × Option (List Char) → Option (List Nat × List Nat)
  | (whole, none) => (digits? whole).map (·, [])
  | ([], some fraction) => (digits? fraction).map ([], ·)
  | (whole, some []) => (digits? whole).map (·, [])
  | (whole, some fraction) => do
    let ds ← digits? whole
    let fs ← digits? fraction
    some (ds, fs)

/-- Reads a decimal without its sign. -/
def unsigned? (negative : Bool) (cs : List Char) : Option Decimal := do
  let (mantissa, tail) := cutAt (fun c => c = 'e' || c = 'E') cs
  let (whole, fraction) ← parts? (cutAt (· = '.') mantissa)
  let exponent ← exponent? tail
  some ⟨negative, ofDigits (whole ++ fraction), exponent - fraction.length⟩

/-- Reads a decimal: an optional sign, digits with an optional point, an optional exponent. -/
def read? (cs : List Char) : Option Decimal :=
  let (negative, body) := splitSign cs
  unsigned? negative body

end Decimal

end Barline.Numeral
