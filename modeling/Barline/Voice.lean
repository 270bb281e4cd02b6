import Barline.Timeline

/-!
# Voices — a timeline by attribute

A program plays eight voices side by side, one for each attribute of a step, and each voice has one cell for
every chunk. Voices are silent in a rest, and where an event does not set their attribute, with three
exceptions: the durations go on, a strum that is not set is zero, and the root is never silent but holds the
value that was set last, zero to begin with.
-/

namespace Barline

/-- The voices of a program. -/
inductive Voice where
  | scale
  | root
  | octave
  | degree
  | legato
  | amp
  | strum
  | dur
  deriving DecidableEq, Repr

namespace Voice

/-- The voices in the order of the program. -/
def all : List Voice :=
  [scale, root, octave, degree, legato, amp, strum, dur]

def name : Voice → String
  | scale => "scale"
  | root => "root"
  | octave => "octave"
  | degree => "degree"
  | legato => "legato"
  | amp => "amp"
  | strum => "strum"
  | dur => "dur"

end Voice

/-- One step of a voice. -/
inductive Cell where
  | rest
  | value (content : Attribute)
  deriving DecidableEq

namespace Cell

def scalar (v : Value) : Cell :=
  value (.scalar v)

def ofAttribute? : Option Attribute → Cell
  | none => rest
  | some a => value a

def ofValue? : Option Value → Cell
  | none => rest
  | some v => scalar v

/-- Cells that are put together by hand, where one that should hold something may hold nothing. -/
def allFilled (cells : List (Option Cell)) : Except BuildError (List Cell) :=
  cells.mapM fun c => c.elim (.error .emptyCell) .ok

def isWritable : Cell → Bool
  | rest => true
  | value a => a.values.all Value.isWritable

end Cell

namespace Chunk

/-- The root in force after a chunk, given the one before it: only a note that sets a root changes it. -/
def hold (before : Attribute) : Chunk → Attribute
  | rest _ => before
  | note _ e => e.root.getD before

/-- The roots in force after each of the chunks, given the one before them. -/
def heldRoots (before : Attribute) : List Chunk → List Attribute
  | [] => []
  | c :: later => hold before c :: heldRoots (hold before c) later

/-- The cell of a chunk in a voice that is silent during rests. -/
def cell (ofEvent : Event → Cell) : Chunk → Cell
  | rest _ => .rest
  | note _ e => ofEvent e

end Chunk

/-- The root before any is set. -/
def initialRoot : Attribute :=
  .scalar (.int 0)

/-- A cell for every chunk, in each of the voices. -/
abbrev Voices := Voice → List Cell

namespace Voices

def ofChunks (chunks : List Chunk) : Voices
  | .scale => chunks.map (Chunk.cell fun e => .ofValue? e.scale)
  | .root => (Chunk.heldRoots initialRoot chunks).map .value
  | .octave => chunks.map (Chunk.cell fun e => .ofAttribute? e.octave)
  | .degree => chunks.map (Chunk.cell fun e => .ofAttribute? e.degree)
  | .legato => chunks.map (Chunk.cell fun e => .ofAttribute? e.legato)
  | .amp => chunks.map (Chunk.cell fun e => .ofAttribute? e.amp)
  | .strum => chunks.map (Chunk.cell fun e => .scalar (e.strum.getD (.int 0)))
  | .dur => chunks.map fun c => .scalar (.number (.ratio c.duration))

end Voices

end Barline
