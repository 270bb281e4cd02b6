import Barline.Event
import Barline.Notice
import Barline.Writing

/-!
# Timelines — events laid out without gaps or overlaps

A timeline fills the grid with chunks: stretches of silence and stretches in which one event sounds. The events
are taken in order of their starts, the shorter first when two start together, and a cursor goes along the grid
with them. An event sounds from the cursor until the next event starts, until its own end or until the end of
the grid, whichever comes first; what is left before it is silence. So at every instant the event that started
last is the only one that may be heard.

`placements` lists the chunks together with the events that got none, in the order in which they are met;
`Timeline.chunks` and `Timeline.notices` are its two halves. `Timeline.fill` gives the timeline of any events, and
`Timeline.write` is how events are laid out: what is dropped is reported on the way, so there is a timeline only if all
numbers in the reports can be written.
-/

namespace Barline

/-! ## Chunks -/

/-- A stretch of a timeline. -/
inductive Chunk where
  | rest (duration : Rat)
  | note (duration : Rat) (event : Event)
  deriving DecidableEq

namespace Chunk

/-- The length of a chunk in beats. -/
def duration : Chunk → Rat
  | rest d => d
  | note d _ => d

/-- The event that sounds in a chunk. -/
def event? : Chunk → Option Event
  | rest _ => none
  | note _ e => some e

end Chunk

/-! ## Order -/

namespace Event

/-- The order of the layout: by start, then by duration. -/
def precedes (a b : Event) : Bool :=
  a.start < b.start || (a.start = b.start && a.duration ≤ b.duration)

/-- Events in the order of the layout; events that agree in start and duration keep their order. -/
def sort (events : List Event) : List Event :=
  events.mergeSort precedes

theorem precedes_iff {a b : Event} :
    precedes a b = true ↔ a.start < b.start ∨ a.start = b.start ∧ a.duration ≤ b.duration := by
  simp [precedes]

theorem precedes_trans {a b c : Event} (hab : precedes a b = true) (hbc : precedes b c = true) :
    precedes a c = true := by
  rw [precedes_iff] at *
  grind

theorem precedes_total (a b : Event) : (precedes a b || precedes b a) = true := by
  rw [Bool.or_eq_true, precedes_iff, precedes_iff]
  grind

theorem sort_perm (events : List Event) : (sort events).Perm events :=
  List.mergeSort_perm events precedes

theorem sort_pairwise (events : List Event) :
    (sort events).Pairwise fun a b => precedes a b = true := by
  have sorted := @List.pairwise_mergeSort Event precedes
  exact sorted (fun _ _ _ => precedes_trans) precedes_total events

end Event

/-! ## Placements -/

/-- What becomes of the events, one after the other. -/
inductive Placement where
  /-- The next chunk of the timeline. -/
  | chunk (c : Chunk)
  /-- An event without audible time. -/
  | inaudible (e : Event)
  /-- This many events are left, and the first of them starts at or beyond the end of the grid. -/
  | ahead (count : Nat)
  /-- This many events are left when the grid is full. -/
  | behind (count : Nat)

namespace Placement

def chunk? : Placement → Option Chunk
  | chunk c => some c
  | _ => none

/-- What there is to report of a placement on a grid of the given length. -/
def notice? (total : Rat) : Placement → Option Notice
  | chunk _ => none
  | inaudible e => some (.inaudible e.start e.duration)
  | ahead count => some (.droppedAhead count total)
  | behind count => some (.droppedBehind count total)

end Placement

def earlier (a b : Rat) : Rat :=
  if b < a then b else a

/-- Silence from one time to another, if the other is later. -/
def silence (t u : Rat) : List Placement :=
  if t < u then [.chunk (.rest (u - t))] else []

/-- The time at which an event stops sounding: the next start, its own end or the end of the grid. -/
def cutOff (total : Rat) (e : Event) (later : List Event) : Rat :=
  let next := match later with
    | [] => total
    | f :: _ => f.start
  earlier (earlier next e.stop) total

/-- Places ordered events on a grid, with the cursor at `t`. -/
def placements (total : Rat) : Rat → List Event → List Placement
  | t, [] => silence t total
  | t, e :: later =>
    if total ≤ e.start then .ahead (later.length + 1) :: silence t total
    else
      let onset := if t < e.start then e.start else t
      let stop := cutOff total e later
      let sounds := onset < stop
      let cursor := if sounds then stop else onset
      silence t e.start ++
        (if sounds then .chunk (.note (stop - onset) e) else .inaudible e) ::
        (if total ≤ cursor then (if later.isEmpty then [] else [.behind later.length])
        else placements total cursor later)

/-! ## Timelines -/

/-- The chunks that fill a grid, with what became of the events. -/
structure Timeline where
  total : Rat
  placements : List Placement

namespace Timeline

/-- Lays events out on a grid of the given length. -/
def fill (events : List Event) (total : Rat) : Except BuildError Timeline :=
  if total ≤ 0 then .error (.emptyGrid total)
  else .ok ⟨total, Barline.placements total 0 (Event.sort events)⟩

def chunks (t : Timeline) : List Chunk :=
  t.placements.filterMap Placement.chunk?

/-- What there is to report of a timeline. -/
def notices (t : Timeline) : List Notice :=
  t.placements.filterMap (Placement.notice? t.total)

def durations (t : Timeline) : List Rat :=
  t.chunks.map Chunk.duration

/-- Lays events out and writes what there is to report. -/
def write (events : List Event) (total : Rat) : Except (WritingError BuildError) Timeline := do
  let timeline ← (fill events total).mapError (WritingError.ofCause BuildError.isWritable)
  WritingError.limited (timeline.notices.all Notice.isWritable) timeline

end Timeline

end Barline
