import Barline.Double.Reader
import Barline.Snapshot.Reading

/-!
# Fields — loosely typed values read as what they should be

Each function reads the value of one field, which stands at the given path. A field that was left empty takes a
default where there is one. Numbers may be given as texts, which are read as doubles; times are exact and read
as literals. Counts are lenient: what cannot be used is mended, with a notice.
-/

namespace Barline

/-- The exact rational number that a value stands for. -/
def Value.exact : Value → Except LiteralError Rat
  | .bool b => .error (.boolean b)
  | .number (.ratio q) => .ok q
  | .number (.whole n) => .ok n
  | .number (.double d) => Literal.ofDouble d
  | .text s => Literal.read s
  | v => .error (.wrongType v.typeName)

namespace Mapping

/-- The value of a field under the first of its spellings that is there; nothing when there is none. -/
def field (entries : Mapping) (spellings : List Text) : Value :=
  (findAny? entries spellings).getD .null

end Mapping

namespace Field

/-- A number, which may be given as a text. -/
def number (path : Path) : Value → Except SnapshotError Number
  | .number x => .ok x
  | .text s =>
    match Double.read? (Text.trimmed s) with
    | some d => .ok (.double d)
    | none => .error (.notNumber path (.text s))
  | v => .error (.notNumber path v)

/-- A whole number, or none for a field that was left empty. -/
def whole (path : Path) (v : Value) : Except SnapshotError (Option Int) :=
  if v.isBlank then .ok none
  else do
    let x ← number path v
    match x.toRat? with
    | none => .error (.notFinite path v)
    | some q => if q.den = 1 then .ok (some q.num) else .error (.notWhole path v)

/-- A number that is at least zero. -/
def nonNegative (path : Path) (default : Number) (v : Value) : Except SnapshotError Number :=
  if v.isBlank then .ok default
  else do
    let x ← number path v
    if x.isNonNegative then .ok x else .error (.negativeNumber path v)

/-- A truth value, or one of the words and numbers that stand for one. -/
def flag (path : Path) (default : Bool) (v : Value) : Except SnapshotError Bool :=
  if v.isBlank then .ok default
  else
    match v with
    | .bool b => .ok b
    | .text s =>
      let word := Double.lowerWord (Text.trimmed s)
      if word ∈ ["true", "yes", "on", "1"] then .ok true
      else if word ∈ ["false", "no", "off", "0"] then .ok false
      else .error (.notFlag path v)
    | .number (.whole n) =>
      if n = 0 then .ok false else if n = 1 then .ok true else .error (.notFlag path v)
    | _ => .error (.notFlag path v)

/-- An exact time. -/
def time (path : Path) (v : Value) : Except SnapshotError Rat :=
  v.exact.mapError (.notExact path)

/-- A mapping; nothing counts as an empty one. -/
def mapping (path : Path) : Value → Except SnapshotError Mapping
  | .null => .ok []
  | .mapping entries => .ok entries
  | v => .error (.notMapping path v)

/-- A count, which is raised to one if it is less. -/
def count (path : Path) (v : Value) (n : Int) : Reading Int :=
  if n < 1 then do
    Reading.notice (.clamped path v)
    return 1
  else return n

/-- A count that has to be a whole number if it is there. -/
def wholeCount (path : Path) (default : Int) (v : Value) : Reading Int := do
  match ← whole path v with
  | none => return default
  | some n => count path v n

/-- A count that is never refused: fractions are dropped, and what has no value counts as one. -/
def lenientCount (path : Path) (v : Value) : Reading Int :=
  if v.isBlank then return 1
  else
    match number path v with
    | .error _ => do
      Reading.notice (.unreadable path v)
      return 1
    | .ok x =>
      match x.truncated? with
      | none => do
        Reading.notice (.notFinite path v)
        return 1
      | some n => count path v n

end Field

end Barline
