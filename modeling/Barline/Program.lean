import Barline.Run
import Barline.Voice
import Barline.Writing

/-!
# Programs — the text that plays a timeline

A program sets an instrument and then lists, for each voice, the tokens of its cells and how often the list is
played. Rests, scalars and chords have one token each; equal neighbours are written once unless that is turned
off.

The instrument and the loop count are loosely typed, so each has a rule for every value, and two faults: an
infinite loop count, and an instrument that is something other than a text.

`Program.render` gives the text of any program. `Program.write` gives it only if all numbers in it can be written.
-/

namespace Barline

namespace Program

/-! ## Options -/

/-- What may be chosen about a program. -/
structure Options where
  instrument : Value := .null
  loopCount : Value := .null
  compress : Value := .bool true
  deriving DecidableEq

/-! ## Tokens -/

def restToken : Text := "Rest()"

def scaleToken (name : Value) : Text :=
  "Scale." ++ name.plain

/-- The token of an attribute: a chord stands in brackets. -/
def attributeToken (item : Value → Text) : Attribute → Text
  | .scalar v => item v
  | .chord vs => "[" ++ Text.join ", " (vs.map item) ++ "]"

def cellToken (item : Value → Text) : Cell → Text
  | .rest => restToken
  | .value a => attributeToken item a

/-- How the values of the voice with a given name are written. -/
def itemToken (voice : String) : Value → Text :=
  if voice = Voice.scale.name then scaleToken else Value.token

/-- The tokens of the voice with a given name. -/
def tokens (voice : String) (cells : List Cell) : List Text :=
  cells.map (cellToken (itemToken voice))

/-! ## Instrument and repeats -/

/-- The instrument of programs that choose none. -/
def defaultInstrument : Text := "default"

/-- An instrument name as a symbol, with a backslash in front. -/
def symbol (name : Text) : Text :=
  match name with
  | [] => .char '\\' :: defaultInstrument
  | .char '\\' :: _ => name
  | _ => .char '\\' :: name

/-- The symbol of an instrument. Values that stand for nothing choose none. -/
def instrumentToken (instrument : Value) : Except BuildError Text :=
  if instrument.isVoid then .ok (symbol [])
  else
    match instrument with
    | .text t => .ok (symbol t.trim)
    | v => .error (.instrumentNotText v.typeName)

def endless : String := "inf"

/-- How often a list is played that is to be played `n` times. -/
def repeatsOf (n : Int) : String :=
  if n < 1 then endless else toString n

/-- How often each list is played. A loop count that is no number, or below one, stands for endless repetition,
and a fraction is dropped. -/
def repeatsToken : Value → Except BuildError String
  | .number (.double (.infinite _)) => .error .infiniteLoopCount
  | .number x => .ok ((x.truncated?.map repeatsOf).getD endless)
  | .text t => .ok (((Numeral.wholeText? t).map repeatsOf).getD endless)
  | _ => .ok endless

/-- Whether the repeats that a loop count stands for can be written; endless repetition always can. -/
def repeatsAreWritable : Value → Bool
  | .number x => x.truncated?.all fun n => n < 1 || Numeral.isWritable n
  | _ => true

/-! ## Layout -/

/-- The width of the column that holds the names of the voices. -/
def nameWidth : Nat := 10

/-- The name of a voice, with a comma and blanks up to the width of the column. -/
def label (voice : Voice) : String :=
  let name := "\\" ++ voice.name ++ ","
  name ++ String.ofList (List.replicate (nameWidth - name.length) ' ')

/-- The line of a voice. -/
def line (repeats : String) (compressed : Bool) (voice : Voice) (cells : List Cell) : Text :=
  "  " ++ label voice ++ "Pseq([" ++
    Text.join ", " (Run.texts compressed (tokens voice.name cells)) ++
      "], " ++ repeats ++ ")"

/-- The text of a program with its instrument and repeats already chosen. -/
def layout (instrument : Text) (repeats : String) (compressed : Bool) (voices : Voices) : Text :=
  let entries := Voice.all.map fun v => line repeats compressed v (voices v)
  Text.join "\n"
    ["(", "Pbind(", "  \\instrument, " ++ instrument ++ ",", Text.join ",\n" entries, ").play",
      ")"]

/-- The text of the program that plays the given voices. -/
def render (voices : Voices) (options : Options) : Except BuildError Text := do
  let repeats ← repeatsToken options.loopCount
  let instrument ← instrumentToken options.instrument
  return layout instrument repeats (!options.compress.isVoid) voices

/-! ## Writing -/

/-- The token of a number, or of any other value in its place, written out. -/
def writeNumber (v : Value) : Except (WritingError BuildError) Text :=
  WritingError.limited v.isWritable v.token

/-- The token of a scale, written out. -/
def writeScale (name : Value) : Except (WritingError BuildError) Text :=
  WritingError.limited name.isWritable (scaleToken name)

/-- The token of a cell, written out. -/
def writeCell (item : Value → Text) (c : Cell) : Except (WritingError BuildError) Text :=
  WritingError.limited c.isWritable (cellToken item c)

/-- The tokens of the voice with a given name, written out. -/
def writeTokens (voice : String) (cells : List Cell) : Except (WritingError BuildError) (List Text) :=
  WritingError.limited (cells.all Cell.isWritable) (tokens voice cells)

/-- The repeats of a loop count, written out. -/
def writeRepeats (loopCount : Value) : Except (WritingError BuildError) String := do
  let repeats ← (repeatsToken loopCount).mapError .cause
  WritingError.limited (repeatsAreWritable loopCount) repeats

/-- Writes the text of a program. The repeats are chosen first, then the instrument, then the cells are written. -/
def write (voices : Voices) (options : Options) : Except (WritingError BuildError) Text := do
  let repeats ← writeRepeats options.loopCount
  let instrument ← (instrumentToken options.instrument).mapError .cause
  WritingError.require (Voice.all.all fun v => (voices v).all Cell.isWritable)
  return layout instrument repeats (!options.compress.isVoid) voices

/-- What is written is the text of the program. -/
theorem render_of_write {voices : Voices} {options : Options} {text : Text}
    (h : write voices options = .ok text) : render voices options = .ok text := by
  unfold write writeRepeats at h
  unfold render
  cases hr : repeatsToken options.loopCount with
  | error e => simp [hr, bind, Except.bind] at h
  | ok repeats =>
    cases hw : repeatsAreWritable options.loopCount with
    | false => simp [hr, hw, bind, Except.bind] at h
    | true =>
      cases hi : instrumentToken options.instrument with
      | error e => simp [hr, hw, hi, bind, Except.bind] at h
      | ok instrument =>
        cases hc : Voice.all.all fun v => (voices v).all Cell.isWritable with
        | false => simp [hr, hw, hi, hc, bind, Except.bind] at h
        | true => simpa [hr, hw, hi, hc, bind, Except.bind, pure, Except.pure] using h

/-- Writes the text of a program whose cells are put together by hand. A cell that holds nothing has no token. -/
def writeDraft (voices : Voice → List (Option Cell)) (options : Options) :
    Except (WritingError BuildError) Text := do
  let program ← write (fun v => (voices v).map (·.getD .rest)) options
  let _ ← (Voice.all.mapM fun v => Cell.allFilled (voices v)).mapError .cause
  return program

end Program

end Barline
