import Barline.Score
import Barline.Snapshot.Field
import Barline.Snapshot.Spelling

/-!
# Snapshots — the state of an editor, read into settings, points and options

A snapshot is a mapping with three sections, each of which may be missing. Its parts are read in a fixed order,
settings, then the points one by one, then the output options, and reading stops at the first error, so the
error names the first part that is wrong.

A point without notes is its own single note. What is read is fit to be built: counts are at least one,
durations are positive, starts are not negative, and every point has a note.
-/

namespace Barline

/-- Everything an editor knows about a piece. -/
structure Snapshot where
  settings : Settings
  points : List Point
  options : Program.Options
  deriving DecidableEq

/-! ## Settings -/

def Settings.read (v : Value) : Reading Settings := do
  let path := Path.top "settings"
  let entries ← Field.mapping path v
  let beatsPerBar ←
    Field.wholeCount (path.field "beats_per_bar") 4 (entries.field Spelling.beatsPerBar)
  let beatUnit ← Field.wholeCount (path.field "beat_unit") 4 (entries.field Spelling.beatUnit)
  let bars ← Field.wholeCount (path.field "bars") 1 (entries.field Spelling.bars)
  return { beatsPerBar, beatUnit, bars }

/-! ## Notes -/

/-- Reads the scale of a note; the word for no scale sets none. -/
def Note.readScale (path : Path) (v : Value) : Except SnapshotError (Option Value) :=
  if v.isBlank then .ok none
  else
    match v with
    | .text s => .ok (if s = Note.noScale then none else some (.text s))
    | _ => .error (.notScale path v)

def Note.read (path : Path) (v : Value) : Except SnapshotError Note := do
  let entries ← Field.mapping path v
  let scale ← Note.readScale (path.field "scale") (entries.field Spelling.scale)
  let root ← Field.whole (path.field "root") (entries.field Spelling.root)
  let degree ← Field.whole (path.field "degree") (entries.field Spelling.degree)
  let octave ← Field.whole (path.field "octave") (entries.field Spelling.octave)
  let legato ← Field.nonNegative (path.field "legato") (.whole 1) (entries.field Spelling.legato)
  let amp ← Field.nonNegative (path.field "amp") (.whole 1) (entries.field Spelling.amp)
  return {
    scale
    root := root.map .int
    degree := degree.map .int
    octave := octave.map .int
    legato := some (.number legato)
    amp := some (.number amp) }

def Note.readList (path : Path) : Int → List Value → Except SnapshotError (List Note)
  | _, [] => .ok []
  | i, v :: rest => do
    let note ← Note.read (path.item i) v
    let notes ← Note.readList path (i + 1) rest
    return note :: notes

/-- Reads the notes of a point; a point without any is its own note. -/
def Note.readAll (path : Path) (entries : Mapping) : Except SnapshotError (List Note) :=
  let notes := entries.field Spelling.notes
  if notes.isVoid then do
    let note ← Note.read path (.mapping entries)
    return [note]
  else
    match notes with
    | .list items => Note.readList (path.field "notes") 0 items
    | v => .error (.notList (path.field "notes") v)

/-! ## Points -/

/-- The start of a point, which is the beginning of the grid unless it is set. -/
def Point.readStart (path : Path) (v : Value) : Except SnapshotError Rat :=
  if v.isBlank then .ok 0 else Field.time path v

def Point.readStrum (path : Path) (v : Value) : Except SnapshotError (Option Value) :=
  if v.isBlank then .ok none
  else do
    let x ← Field.nonNegative path (.whole 0) v
    return some (.number x)

def Point.readTimes (path : Path) (entries : Mapping) : Except SnapshotError (Rat × Rat) := do
  let rawDuration := entries.field Spelling.duration
  if rawDuration.isBlank then throw (.missing (path.field "duration"))
  let start ← Point.readStart (path.field "start") (entries.field Spelling.start)
  let duration ← Field.time (path.field "duration") rawDuration
  if duration ≤ 0 then throw (.notPositive (path.field "duration") duration)
  if start < 0 then throw (.negativeTime (path.field "start") start)
  return (start, duration)

/-- Reads the entries of a point that stands at a path. -/
def Point.readEntries (path : Path) (entries : Mapping) : Reading Point := do
  let (start, duration) ← Point.readTimes path entries
  let notes ← Note.readAll path entries
  let repeats ← Field.lenientCount (path.field "repeat") (entries.field Spelling.repeats)
  let strum ← Point.readStrum (path.field "strum") (entries.field Spelling.strum)
  return { start, duration, notes, repeats, strum }

def Point.path (index : Int) : Path :=
  (Path.top "points").item index

def Point.read (index : Int) : Value → Reading Point
  | .mapping entries => Point.readEntries (Point.path index) entries
  | v => Reading.fail (.notMapping (Point.path index) v)

def Point.readList : Int → List Value → Reading (List Point)
  | _, [] => return []
  | i, v :: rest => do
    let point ← Point.read i v
    let points ← Point.readList (i + 1) rest
    return point :: points

/-! ## Options -/

/-- Reads a loop count; what is no whole number is left out, with a notice. -/
def Program.Options.readLoopCount (v : Value) : Reading Value :=
  match Field.whole ((Path.top "output").field "loop_count") v with
  | .ok none => return .null
  | .ok (some n) => return .int n
  | .error _ => do
    Reading.notice (.ignoredLoopCount v)
    return .null

/-- Reads the output options. The instrument is taken as it is. -/
def Program.Options.read (v : Value) : Reading Program.Options := do
  let path := Path.top "output"
  let entries ← Field.mapping path v
  let loopCount ← Program.Options.readLoopCount (entries.field Spelling.loopCount)
  let compress ← Field.flag (path.field "compress") true (entries.field Spelling.compress)
  return { instrument := entries.field Spelling.instrument, loopCount, compress := .bool compress }

/-! ## Snapshots -/

namespace Snapshot

/-- The entries of a snapshot; a value that stands for nothing has none. -/
def entries (v : Value) : Except SnapshotError Mapping :=
  if v.isVoid then .ok []
  else
    match v with
    | .mapping entries => .ok entries
    | _ => .error (.notSnapshot v)

/-- The raw points of a snapshot; a value that stands for nothing has none. -/
def rawPoints (v : Value) : Except SnapshotError (List Value) :=
  if v.isVoid then .ok []
  else
    match v with
    | .list items => .ok items
    | _ => .error (.notList (Path.top "points") v)

def read (v : Value) : Reading Snapshot := do
  let sections ← entries v
  let raw ← rawPoints (sections.field Spelling.points)
  let settings ← Settings.read (sections.field Spelling.settings)
  let points ← Point.readList 0 raw
  let options ← Program.Options.read (sections.field Spelling.output)
  return { settings, points, options }

/-- Builds the score of a snapshot with its own options. -/
def build (s : Snapshot) : Except BuildError Score :=
  Score.build s.points s.settings s.options

/-- Builds the score of a snapshot with its own options and writes it out. -/
def write (s : Snapshot) : Except (WritingError BuildError) Score :=
  Score.write s.points s.settings s.options

end Snapshot

end Barline
