import Barline.Snapshot.Path
import Barline.Value.Printer

/-!
# Snapshot errors — why a snapshot cannot be read

Each error holds the place where reading stopped and what stood there. A message names the place first.
-/

namespace Barline

/-- Why a snapshot cannot be read. -/
inductive SnapshotError where
  | notNumber (path : Path) (value : Value)
  | notFinite (path : Path) (value : Value)
  | notWhole (path : Path) (value : Value)
  | negativeNumber (path : Path) (value : Value)
  | notFlag (path : Path) (value : Value)
  | notScale (path : Path) (value : Value)
  | notMapping (path : Path) (value : Value)
  | notList (path : Path) (value : Value)
  | notExact (path : Path) (cause : LiteralError)
  | missing (path : Path)
  | notPositive (path : Path) (time : Rat)
  | negativeTime (path : Path) (time : Rat)
  | notSnapshot (value : Value)
  | fileNotSnapshot (file : Text) (value : Value)
  deriving DecidableEq

namespace SnapshotError

/-- What is said of a value that should be a number: truth values and texts are quoted, others named by type. -/
def kindOrText : Value → String
  | .bool b => (Value.bool b).quoted
  | .text s => (Value.text s).quoted
  | v => v.typeName

def message : SnapshotError → Text
  | notNumber path v => path.text ++ ": expected a number, got " ++ kindOrText v
  | notFinite path v => path.text ++ ": expected a finite number, got " ++ v.quoted
  | notWhole path v => path.text ++ ": expected a whole number, got " ++ v.quoted
  | negativeNumber path v => path.text ++ ": must be a non-negative number, got " ++ v.quoted
  | notFlag path v => path.text ++ ": expected true or false, got " ++ v.quoted
  | notScale path v => path.text ++ ": expected a scale name, got " ++ v.quoted
  | notMapping path v => path.text ++ ": expected a mapping, got " ++ v.typeName
  | notList path v => path.text ++ ": expected a list, got " ++ v.typeName
  | notExact path cause => path.text ++ ": " ++ cause.message
  | missing path => path.text ++ ": missing"
  | notPositive path q => path.text ++ ": must be positive, got " ++ Literal.display q
  | negativeTime path q => path.text ++ ": must not be negative, got " ++ Literal.display q
  | notSnapshot v => "Snapshot must be a mapping, got " ++ v.typeName
  | fileNotSnapshot file v => file ++ ": snapshot must be a mapping, got " ++ v.typeName

def isWritable : SnapshotError → Bool
  | notFinite _ v | notWhole _ v | negativeNumber _ v | notFlag _ v | notScale _ v => v.isWritable
  | notExact _ cause => cause.isWritable
  | notPositive _ q | negativeTime _ q => Literal.isWritable q
  | _ => true

end SnapshotError

end Barline
