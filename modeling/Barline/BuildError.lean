import Barline.Value.Printer

/-!
# Build errors — why points have no program

Points that a snapshot has been read into never have the faults of repeats, nor do their grid and their cells have any;
points, settings and cells that are put together by hand may.
-/

namespace Barline

/-- Why a program cannot be built. -/
inductive BuildError where
  /-- A point is played less than once. -/
  | tooFewRepeats (repeats : Value)
  /-- What should say how often a point is played is no number. -/
  | repeatsNotNumber (typeName : String)
  /-- What should say how often a point is played is a number of a kind that counts nothing. -/
  | repeatsNotWhole (typeName : String)
  /-- The grid has no length. -/
  | emptyGrid (total : Rat)
  /-- The loop count is infinite, so it is no whole number. -/
  | infiniteLoopCount
  /-- The instrument is given as something other than a text. -/
  | instrumentNotText (typeName : String)
  /-- A cell that should hold something holds nothing. -/
  | emptyCell
  deriving DecidableEq

namespace BuildError

def message : BuildError → Text
  | tooFewRepeats repeats => "Repeat count must be at least 1, got " ++ repeats.plain
  | repeatsNotNumber typeName => "'<' not supported between instances of '" ++ typeName ++ "' and 'int'"
  | repeatsNotWhole typeName => "'" ++ typeName ++ "' object cannot be interpreted as an integer"
  | emptyGrid total => "Timeline total must be positive, got " ++ Literal.display total
  | infiniteLoopCount => "cannot convert float infinity to integer"
  | instrumentNotText typeName => "'" ++ typeName ++ "' object has no attribute 'strip'"
  | emptyCell => "'NoneType' object has no attribute 'value'"

def isWritable : BuildError → Bool
  | tooFewRepeats repeats => repeats.isWritable
  | emptyGrid total => Literal.isWritable total
  | _ => true

end BuildError

end Barline
