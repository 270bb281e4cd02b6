import Barline.Double.Reader
import Barline.Value.Basic
import Barline.Yaml.Scalar

/-!
# Resolving — what plain scalars stand for

A plain scalar may be spelled like nothing, a truth value or a number, and stands for it then; otherwise it is a
text. Whole numbers may be binary, octal, decimal, hexadecimal or in base sixty; numbers with a point may be in base
sixty as well. Underscores between digits count for nothing.
-/

namespace Barline.Yaml

/-! ## Classes of digits -/

def isDecimalDigit (c : Char) : Bool :=
  '0' ≤ c && c ≤ '9'

/-- A digit or an underscore between digits. -/
def isGroupChar (c : Char) : Bool :=
  isDecimalDigit c || c = '_'

/-- Digits without the underscores between them. -/
def bare (cs : List Char) : List Char :=
  cs.filter (· ≠ '_')

/-- The number that digits denote in a base. -/
def inBase (base : Nat) (cs : List Char) : Nat :=
  (bare cs).foldl (fun n c => base * n + (hexValue? c).getD 0) 0

/-- A digit with digits and underscores behind it. -/
def isGroup : List Char → Bool
  | [] => false
  | c :: rest => isDecimalDigit c && rest.all isGroupChar

/-- One or two digits below sixty. -/
def isSixtieth : List Char → Bool
  | [c] => isDecimalDigit c
  | [c, d] => '0' ≤ c && c ≤ '5' && isDecimalDigit d
  | _ => false

/-! ## Whole numbers -/

/-- The number of a digit group in base ten, within the limit of numerals. -/
def decimal (cs : List Char) : Except LoadError Nat :=
  let count := (bare cs).length
  if count ≤ Numeral.digitLimit then .ok (inBase 10 cs) else .error (.tooManyDigits count)

/-- Digits of a class with a base in front. The limit of numerals does not hold for them. -/
def based (base : Nat) (digit : Char → Bool) (cs : List Char) :
    Option (Except LoadError Nat) :=
  if cs.isEmpty || !cs.all fun c => digit c || c = '_' then none
  else if (bare cs).isEmpty then some (.error (.noDigits base))
  else some (.ok (inBase base cs))

/-- A whole number in base sixty, whose first part is not zero. -/
def sexagesimal? (cs : List Char) : Option (Except LoadError Nat) :=
  match cs.splitOn ':' with
  | first :: second :: others =>
    let parts := second :: others
    if isGroup first && first.head? ≠ some '0' && parts.all isSixtieth then
      some ((decimal first).map fun n => parts.foldl (fun n part => 60 * n + inBase 10 part) n)
    else none
  | _ => none

/-- A whole number without its sign. -/
def natural? : List Char → Option (Except LoadError Nat)
  | ['0'] => some (.ok 0)
  | '0' :: 'b' :: rest => based 2 (fun c => c = '0' || c = '1') rest
  | '0' :: 'x' :: rest => based 16 (fun c => (hexValue? c).isSome) rest
  | '0' :: rest =>
    if rest.all fun c => ('0' ≤ c && c ≤ '7') || c = '_' then some (.ok (inBase 8 rest)) else none
  | cs => if isGroup cs then some (decimal cs) else sexagesimal? cs

def whole? (cs : List Char) : Option (Except LoadError Int) :=
  let (negative, body) := Numeral.splitSign cs
  (natural? body).map fun n => n.map (Numeral.signed negative)

/-! ## Numbers with a point -/

/-- Whether an exponent has a sign and digits; it may be missing. -/
def isExponent : Option (List Char) → Bool
  | none => true
  | some (sign :: digits) =>
    (sign = '+' || sign = '-') && !digits.isEmpty && digits.all isDecimalDigit
  | some [] => false

/-- Whether an unsigned text is a decimal with a point, which only follows no digits where there is no sign. -/
def isPointed (bareSign : Bool) (cs : List Char) : Bool :=
  match Numeral.cutAt (· = '.') cs with
  | (_, none) => false
  | (whole, some tail) =>
    let (fraction, exponent) := Numeral.cutAt (fun c => c = 'e' || c = 'E') tail
    isExponent exponent &&
      (if whole.isEmpty then bareSign && isGroup fraction
      else isGroup whole && fraction.all isGroupChar)

/-- The sum of two magnitudes, rounded; infinite as soon as one of them is. -/
def addMagnitudes (x y : Double) : Double :=
  match x.toRat?, y.toRat? with
  | some p, some q => .nearest (p + q)
  | _, _ => .infinite false

/-- The magnitude of parts in base sixty, the least first, each of which weighs sixty times the one before it. A weight
has to be a double even when the part is zero. -/
def weigh : Nat → Double → List Double → Except LoadError Double
  | _, sum, [] => .ok sum
  | weight, sum, x :: rest =>
    match (Double.nearest (weight : Rat)).toRat?, x.toRat? with
    | none, _ => .error .weightTooLarge
    | some w, some p => weigh (60 * weight) (addMagnitudes sum (.nearest (p * w))) rest
    | some _, none => weigh (60 * weight) (.infinite false) rest

/-- The double that digits without a sign denote. -/
def magnitudeOf (cs : List Char) : Double :=
  ((Numeral.Decimal.unsigned? false (bare cs)).map Double.ofDecimal).getD .nan

/-- A number in base sixty with a point, without its sign. -/
def sexagesimalPoint? (cs : List Char) : Option (Except LoadError Double) :=
  match Numeral.cutAt (· = '.') cs with
  | (whole, some fraction) =>
    match whole.splitOn ':' with
    | first :: second :: others =>
      let parts := second :: others
      if isGroup first && parts.all isSixtieth && fraction.all isGroupChar then
        match (first :: parts).reverse with
        | last :: before =>
          some (weigh 1 (.ofRank false 0) ((last ++ '.' :: fraction) :: before |>.map magnitudeOf))
        | [] => none
      else none
    | _ => none
  | _ => none

def withSign (negative : Bool) : Double → Double
  | .finite _ rank => .finite negative rank
  | .infinite _ => .infinite negative
  | .nan => .nan

/-- A number with a point. -/
def point? (cs : List Char) : Option (Except LoadError Double) :=
  let (negative, body) := Numeral.splitSign cs
  let bareSign := body.length = cs.length
  let word := String.ofList body
  if word ∈ [".inf", ".Inf", ".INF"] then some (.ok (.infinite negative))
  else if bareSign && word ∈ [".nan", ".NaN", ".NAN"] then some (.ok .nan)
  else if isPointed bareSign body then some (.ok (withSign negative (magnitudeOf body)))
  else (sexagesimalPoint? body).map fun d => d.map (withSign negative)

/-! ## Scalars -/

def nullWords : List String :=
  ["", "~", "null", "Null", "NULL"]

def trueWords : List String :=
  ["yes", "Yes", "YES", "true", "True", "TRUE", "on", "On", "ON"]

def falseWords : List String :=
  ["no", "No", "NO", "false", "False", "FALSE", "off", "Off", "OFF"]

/-- The word under which the entries of other mappings stand. -/
def mergeWord : String := "<<"

/-- The word that is an ordinary text as a key and stands for nothing elsewhere. -/
def defaultWord : String := "="

/-- What a plain scalar stands for. -/
def resolve (cs : List Char) : Except LoadError Value :=
  let word := String.ofList cs
  if word ∈ nullWords then .ok .null
  else if word ∈ trueWords then .ok (.bool true)
  else if word ∈ falseWords then .ok (.bool false)
  else if word = mergeWord ∨ word = defaultWord then .error .malformed
  else
    match point? cs with
    | some d => d.map fun d => .number (.double d)
    | none =>
      match whole? cs with
      | some n => n.map .int
      | none => .ok (.text (Text.ofChars cs))

end Barline.Yaml
