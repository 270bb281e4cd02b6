import Barline.Text.Basic

/-!
# Paths — where in a snapshot a value stands

A path starts at a named section and goes on through fields and list items, as in `points[0].notes[1].degree`.
-/

namespace Barline

/-- The place of a value in a snapshot. -/
inductive Path where
  | top (name : Text)
  | field (parent : Path) (name : String)
  | item (parent : Path) (index : Int)
  deriving DecidableEq, Repr

def Path.text : Path → Text
  | top name => name
  | field parent name => parent.text ++ "." ++ name
  | item parent index => parent.text ++ "[" ++ toString index ++ "]"

end Barline
