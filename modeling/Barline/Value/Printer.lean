import Barline.Value.Basic

/-!
# Printing values — the text of loosely typed data

A value has two texts. Inside a message or inside another value it is *quoted*: texts stand in quotes and a
rational number names its parts. By itself it is *plain*: a text is itself, and a rational number is its literal;
the two agree on everything else.

A value can be written when all numbers inside it can (`Value.isWritable`).
-/

namespace Barline

def truthName (b : Bool) : String :=
  if b then "True" else "False"

/-- The text of a key inside a mapping. -/
def Key.quoted : Key → String
  | null => "None"
  | bool b => truthName b
  | number x => x.quoted
  | text s => Text.quoted s

def Key.isWritable : Key → Bool
  | number x => x.isWritable
  | _ => true

namespace Value

mutual

/-- The text of a value inside a message. -/
def quoted : Value → String
  | null => "None"
  | bool b => truthName b
  | number x => x.quoted
  | text s => Text.quoted s
  | list items => "[" ++ ", ".intercalate (quotedItems items) ++ "]"
  | mapping entries => "\x7b" ++ ", ".intercalate (quotedEntries entries) ++ "\x7d"

def quotedItems : List Value → List String
  | [] => []
  | v :: rest => quoted v :: quotedItems rest

def quotedEntries : List (Key × Value) → List String
  | [] => []
  | (k, v) :: rest => (k.quoted ++ ": " ++ quoted v) :: quotedEntries rest

end

/-- The text of a value by itself. -/
def plain : Value → Text
  | text t => t
  | number x => x.plain
  | v => v.quoted

/-- The text of a value in a program. -/
def token : Value → Text
  | number x => x.token
  | v => v.plain

/-! ## Values that can be written -/

mutual

def isWritable : Value → Bool
  | number x => x.isWritable
  | list items => areWritable items
  | mapping entries => entriesAreWritable entries
  | _ => true

def areWritable : List Value → Bool
  | [] => true
  | v :: rest => isWritable v && areWritable rest

def entriesAreWritable : List (Key × Value) → Bool
  | [] => true
  | (k, v) :: rest => k.isWritable && isWritable v && entriesAreWritable rest

end

end Value

end Barline
