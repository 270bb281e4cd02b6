import Barline.Attribute
import Barline.BuildError
import Barline.Point

/-!
# Events — points played out

Each repeat of a point is an event of its own: the repeats of a point follow each other without a gap, and all
of them carry the same attributes. A step of the program has room for one scale only, so an event takes the
first scale among its notes that names one.
-/

namespace Barline

/-- One occurrence of a point. -/
structure Event where
  start : Rat
  duration : Rat
  scale : Option Value := none
  root : Option Attribute := none
  degree : Option Attribute := none
  octave : Option Attribute := none
  legato : Option Attribute := some (.scalar (.int 1))
  amp : Option Attribute := some (.scalar (.int 1))
  strum : Option Value := none
  deriving DecidableEq

namespace Event

/-- Where an event ends, unless it is cut short. -/
def stop (e : Event) : Rat :=
  e.start + e.duration

end Event

namespace Note

/-- The scale name that stands for no scale. -/
def noScale : Text := "none"

def namesScale : Value → Bool
  | .text t => !t.isEmpty && t ≠ noScale
  | v => !v.isVoid

/-- The first scale that is named among simultaneous notes. -/
def scaleOf (notes : List Note) : Option Value :=
  notes.findSome? fun n => n.scale.filter namesScale

end Note

namespace Point

/-- The event of a point at its own start. -/
def event (p : Point) : Event where
  start := p.start
  duration := p.duration
  scale := Note.scaleOf p.notes
  root := Attribute.project (p.notes.map (·.root))
  degree := Attribute.project (p.notes.map (·.degree))
  octave := Attribute.project (p.notes.map (·.octave))
  legato := (Attribute.project (p.notes.map (·.legato))).or (some (.scalar (.int 1)))
  amp := (Attribute.project (p.notes.map (·.amp))).or (some (.scalar (.int 1)))
  strum := p.strum

/-- The start of the repeat with the given number; the first has number zero. -/
def onset (p : Point) (k : Nat) : Rat :=
  p.start + p.duration * k

/-- The repeats of a point, in order of time. -/
def occurrences (p : Point) : List Event :=
  (List.range p.repeats.toNat).map fun k => { p.event with start := p.onset k }

def expand (p : Point) : Except BuildError (List Event) :=
  if p.repeats < 1 then .error (.tooFewRepeats (.int p.repeats)) else .ok p.occurrences

/-- Plays a list of points out, one after the other. -/
def expandAll : List Point → Except BuildError (List Event)
  | [] => .ok []
  | p :: rest => do
    let events ← p.expand
    let more ← expandAll rest
    return events ++ more

/-- The point played as often as a loosely typed value says. A truth value counts as one or zero; other numbers than
whole ones count nothing, and of those below one this is said first. -/
def withRepeats (p : Point) (repeats : Value) : Except BuildError Point :=
  match repeats with
  | .bool b => if b then .ok { p with repeats := 1 } else .error (.tooFewRepeats repeats)
  | .number x =>
    if x.isLessThanOne then .error (.tooFewRepeats repeats)
    else
      match x with
      | .whole n => .ok { p with repeats := n }
      | _ => .error (.repeatsNotWhole x.typeName)
  | v => .error (.repeatsNotNumber v.typeName)

end Point

end Barline
