import Barline.Snapshot.Path
import Barline.Value.Printer

/-!
# Notices — what is reported without being an error

Reading a snapshot is lenient in places, laying out a timeline drops what cannot be heard, and a session tells
what it does. Each such occasion is a notice with a level of importance and one wording.
-/

namespace Barline

inductive Level where
  | debug
  | info
  | warning
  | error
  deriving DecidableEq, Repr

/-- The name that a record of this level begins with. -/
def Level.name : Level → String
  | debug => "DEBUG"
  | info => "INFO"
  | warning => "WARNING"
  | error => "ERROR"

/-- Something worth reporting. -/
inductive Notice where
  /-- This many events start at or beyond the end of the grid. -/
  | droppedAhead (count : Nat) (total : Rat)
  /-- An event is cut off before it can be heard. -/
  | inaudible (start duration : Rat)
  /-- This many events are left when the grid is full. -/
  | droppedBehind (count : Nat) (total : Rat)
  /-- A count below one is taken as one. -/
  | clamped (path : Path) (value : Value)
  /-- A count that is no number is taken as one. -/
  | unreadable (path : Path) (value : Value)
  /-- An infinite count, or one that is not a number, is taken as one. -/
  | notFinite (path : Path) (value : Value)
  /-- A loop count that is no whole number is left out. -/
  | ignoredLoopCount (value : Value)
  | loadedSnapshot (file : Text)
  | missingConfig (file : Text)
  | configNotMapping (file : Text)
  | unreadableSnapshot (file reason : Text)
  | invalidSnapshot (reason : Text)
  | built (chunks : Nat) (bars : Int)
  deriving DecidableEq

namespace Notice

def level : Notice → Level
  | ignoredLoopCount _ | missingConfig _ | configNotMapping _ => .warning
  | unreadableSnapshot _ _ | invalidSnapshot _ => .error
  | built _ _ => .info
  | _ => .debug

def message : Notice → Text
  | droppedAhead count total =>
    "Dropped " ++ toString count ++ " event(s) starting at or beyond the grid end at " ++
      Literal.display total
  | inaudible start duration =>
    "Dropped event at " ++ Literal.display start ++ " (duration " ++ Literal.display duration ++
      "): no audible time left"
  | droppedBehind count total =>
    "Dropped " ++ toString count ++ " event(s) beyond the grid end at " ++ Literal.display total
  | clamped path value => path.text ++ ": " ++ value.quoted ++ " clamped to 1"
  | unreadable path value => path.text ++ ": unreadable value " ++ value.quoted ++ " treated as 1"
  | notFinite path value => path.text ++ ": non-finite value " ++ value.quoted ++ " treated as 1"
  | ignoredLoopCount value =>
    "Ignoring invalid loop count " ++ value.quoted ++ "; looping forever"
  | loadedSnapshot file => "Loaded snapshot from " ++ file
  | missingConfig file => "Config file " ++ file ++ " not found. Using defaults."
  | configNotMapping file => "Config file " ++ file ++ " is not a mapping. Using defaults."
  | unreadableSnapshot file reason => "Could not read snapshot " ++ file ++ ": " ++ reason
  | invalidSnapshot reason => "Invalid snapshot: " ++ reason
  | built chunks bars => "Built " ++ toString chunks ++ " chunks over " ++ toString bars ++ " bar(s)"

def isWritable : Notice → Bool
  | droppedAhead _ total | droppedBehind _ total => Literal.isWritable total
  | inaudible start duration => Literal.isWritable start && Literal.isWritable duration
  | clamped _ value | unreadable _ value | notFinite _ value | ignoredLoopCount value =>
    value.isWritable
  | built _ bars => Numeral.isWritable bars
  | _ => true

/-- A notice as a line of a log. -/
def record (n : Notice) : Text :=
  n.level.name ++ " " ++ n.message

end Notice

end Barline
