import Barline.Value.Basic

/-!
# Attributes — what the notes of an event say about one aspect of the sound

The simultaneous notes of an event each may set an attribute such as the degree. Notes that leave it unset do
not count: set by one note, the attribute is a scalar; set by several, it is a chord of their values in note
order, even when they agree; set by none, there is no attribute.
-/

namespace Barline

/-- One value for the whole event, or one value for each note that sets it. -/
inductive Attribute where
  | scalar (value : Value)
  | chord (values : List Value)
  deriving DecidableEq

namespace Attribute

/-- Collects the values that simultaneous notes set. -/
def project (settings : List (Option Value)) : Option Attribute :=
  match settings.filterMap id with
  | [] => none
  | [v] => some (scalar v)
  | vs => some (chord vs)

/-- The values of an attribute, in note order. -/
def values : Attribute → List Value
  | scalar v => [v]
  | chord vs => vs

end Attribute

end Barline
