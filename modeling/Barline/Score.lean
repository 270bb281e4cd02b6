import Barline.Program

/-!
# Scores — from points to a program

A score is everything that comes of one set of points: the timeline that they fill, its voices and the program.
It depends on nothing but the points, the settings and the options.

`Score.build` gives the score of any points. `Score.write` is how scores are made: whatever is reported or printed on
the way is written, so there is a score only if all numbers in it can be.
-/

namespace Barline

/-- The timeline of a set of points, its voices and its program. -/
structure Score where
  timeline : Timeline
  voices : Voices
  program : Text

/-- The timeline that a list of points fills. -/
def Timeline.ofPoints (points : List Point) (settings : Settings) : Except BuildError Timeline := do
  let events ← Point.expandAll points
  Timeline.fill events settings.total

/-- The timeline that a list of points fills, with what there is to report of it written. -/
def Timeline.writePoints (points : List Point) (settings : Settings) :
    Except (WritingError BuildError) Timeline := do
  let events ← (Point.expandAll points).mapError (WritingError.ofCause BuildError.isWritable)
  Timeline.write events settings.total

theorem Timeline.writePoints_eq (points : List Point) (settings : Settings) :
    writePoints points settings =
      ((ofPoints points settings).mapError (WritingError.ofCause BuildError.isWritable) >>= fun timeline =>
        WritingError.limited (timeline.notices.all Notice.isWritable) timeline) := by
  unfold writePoints ofPoints
  cases Point.expandAll points with
  | error e => rfl
  | ok events => rfl

/-- What is written is the timeline. -/
theorem Timeline.ofPoints_of_writePoints {points : List Point} {settings : Settings} {timeline : Timeline}
    (h : writePoints points settings = .ok timeline) : ofPoints points settings = .ok timeline := by
  rw [writePoints_eq] at h
  cases hfill : ofPoints points settings with
  | error e => simp [hfill, bind, Except.bind] at h
  | ok found =>
    cases hn : found.notices.all Notice.isWritable with
    | false => simp [hfill, hn, bind, Except.bind] at h
    | true => simpa [hfill, hn, bind, Except.bind] using h

namespace Score

/-- Builds the score of a list of points. -/
def build (points : List Point) (settings : Settings) (options : Program.Options) :
    Except BuildError Score := do
  let timeline ← Timeline.ofPoints points settings
  let voices := Voices.ofChunks timeline.chunks
  let program ← Program.render voices options
  return ⟨timeline, voices, program⟩

/-- Builds the score of a list of points and writes it out: first what there is to report of the timeline, then the
program. -/
def write (points : List Point) (settings : Settings) (options : Program.Options) :
    Except (WritingError BuildError) Score := do
  let timeline ← Timeline.writePoints points settings
  let voices := Voices.ofChunks timeline.chunks
  let program ← Program.write voices options
  return ⟨timeline, voices, program⟩

/-- What is written is the score. -/
theorem build_of_write {points : List Point} {settings : Settings} {options : Program.Options}
    {score : Score} (h : write points settings options = .ok score) :
    build points settings options = .ok score := by
  unfold write at h
  unfold build
  cases ht : Timeline.writePoints points settings with
  | error e => simp [ht, bind, Except.bind] at h
  | ok timeline =>
    have hfill := Timeline.ofPoints_of_writePoints ht
    cases hp : Program.write (Voices.ofChunks timeline.chunks) options with
    | error e => simp [ht, hp, bind, Except.bind] at h
    | ok program =>
      simpa [ht, hfill, hp, Program.render_of_write hp, bind, Except.bind, pure, Except.pure] using h

/-- The number of steps in each voice. -/
def size (s : Score) : Nat :=
  s.timeline.chunks.length

/-- The exact durations of the steps. -/
def durations (s : Score) : List Rat :=
  s.timeline.durations

/-- The durations of the steps as doubles, unless one of them is too large. -/
def approximateDurations (s : Score) : Option (List Double) :=
  s.durations.mapM Double.approximate?

end Score

end Barline
