import Barline.Value.Basic

/-!
# Points — what a player places on the grid

A point is a block of notes that sound together, with a start and a duration in beats, and the number of times
it is played back to back. The grid has a number of bars of equally many beats.

Times are rational numbers, so a third of a beat is exactly that. The attributes of a note are loosely typed,
as they pass through to the printed program; `none` means that the note does not set the attribute.
-/

namespace Barline

/-- The grid on which points are placed. -/
structure Settings where
  beatsPerBar : Int := 4
  beatUnit : Int := 4
  bars : Int := 1
  deriving DecidableEq, Repr

/-- The length of the grid in beats. -/
def Settings.total (s : Settings) : Rat :=
  ((s.beatsPerBar * s.bars : Int) : Rat)

/-- One note of a point. -/
structure Note where
  scale : Option Value := none
  root : Option Value := none
  degree : Option Value := none
  octave : Option Value := none
  legato : Option Value := some (.int 1)
  amp : Option Value := some (.int 1)
  deriving DecidableEq

/-- A block of simultaneous notes, played a number of times back to back. -/
structure Point where
  start : Rat
  duration : Rat
  notes : List Note
  repeats : Int := 1
  strum : Option Value := none
  deriving DecidableEq

end Barline
