import Barline.Value.Basic

/-!
# Arguments — what a command line asks for

A command line names a snapshot and may carry options, before and behind it. Long options may be shortened as
long as only one of them begins like that; a value follows its option as the next argument or behind an equals
sign; short options may be written together. Behind two dashes everything is a name. Two dashes as an attached value
leave an option with no value at all, which is then an empty list.

Every argument is classified before any is acted on, so an ambiguous option is refused first of all. After that
the arguments take effect one by one, and the first that asks for help, or is wrong, ends the reading; what is
only superfluous is refused at the end.
-/

namespace Barline.CommandLine

/-! ## Options -/

/-- What an option begins with. -/
def dash : CodePoint := .char '-'

/-- What stands between an option and an attached value. -/
def equalsSign : CodePoint := .char '='

/-- What long options begin with; by itself it is the separator. -/
def twoDashes : Text := [dash, dash]

inductive Flag where
  | help
  | config
  | instrument
  | loopCount
  | noCompress
  | verbose
  deriving DecidableEq, Repr

namespace Flag

def takesValue : Flag → Bool
  | config | instrument | loopCount => true
  | help | noCompress | verbose => false

def spellings : List (Text × Flag) :=
  [("-h", help), ("--help", help), ("--config", config), ("--instrument", instrument),
    ("--loop-count", loopCount), ("--no-compress", noCompress), ("-v", verbose), ("--verbose", verbose)]

/-- The option with a short spelling. -/
def short? (p : CodePoint) : Option Flag :=
  spellings.lookup [dash, p]

end Flag

/-! ## Classification -/

inductive Item where
  /-- A name or a value. -/
  | word (text : Text)
  /-- The first two dashes that stand by themselves. -/
  | separator
  /-- An option, in its short or long form, with the value that is attached to it. -/
  | flag (f : Flag) (short : Bool) (attached : Option Text)
  /-- Something that looks like an option and is none. -/
  | unknown
  deriving DecidableEq, Repr

/-- Whether an argument looks like a negative number, which is a value and no option. -/
def looksNegative (t : Text) : Bool :=
  match t.chars with
  | '-' :: body =>
    let body := if body.getLast? = some '\n' then body.dropLast else body
    match Numeral.cutAt (· = '.') body with
    | (whole, none) => !whole.isEmpty && whole.all Text.isDigit
    | (whole, some fraction) =>
      whole.all Text.isDigit && !fraction.isEmpty && fraction.all Text.isDigit
  | _ => false

/-- The options that an argument may stand for: long ones that begin like it, or a short one with more behind. -/
def interpretations (t : Text) : List Item :=
  let (name, attached) := Numeral.cutAt (· = equalsSign) t
  Flag.spellings.filterMap fun (spelling, f) =>
    if t.take 2 = twoDashes then
      if name.isPrefixOf spelling then some (.flag f false attached) else none
    else if spelling = t.take 2 then some (.flag f true (some (t.drop 2)))
    else none

def isShort (t : Text) : Bool :=
  t.take 2 ≠ twoDashes

/-- Classifies an argument that begins with a dash and does not consist of it; an ambiguous one is nothing. -/
def classifyDashed (t : Text) : Option Item :=
  match Flag.spellings.lookup t with
  | some f => some (.flag f (isShort t) none)
  | none =>
    let (name, attached) := Numeral.cutAt (· = equalsSign) t
    match attached, Flag.spellings.lookup name with
    | some value, some f => some (.flag f (isShort name) (some value))
    | _, _ =>
      match interpretations t with
      | [item] => some item
      | _ :: _ :: _ => none
      | [] =>
        if looksNegative t || t.contains (.char ' ') then some (.word t) else some .unknown

/-- Classifies an argument; an ambiguous one is nothing. -/
def classify (argument : Text) : Option Item :=
  match argument with
  | .char '-' :: _ :: _ => classifyDashed argument
  | _ => some (.word argument)

/-- Classifies the arguments of a command line. Behind the separator all of them are words. -/
def classifyAll : List Text → Option (List Item)
  | [] => some []
  | argument :: rest =>
    if argument = twoDashes then some (.separator :: rest.map .word)
    else do
      let item ← classify argument
      let items ← classifyAll rest
      some (item :: items)

/-! ## Effects -/

/-- What a command line asks for. -/
structure Arguments where
  snapshot : Text
  /-- The name of the option file; none when the option is left with no value. -/
  config : Option Text := some "config.yaml"
  instrument : Option Value := none
  loopCount : Option Value := none
  noCompress : Bool := false
  verbose : Bool := false
  deriving DecidableEq

/-- Why a command line is not acted on. -/
inductive Refusal where
  /-- Help was asked for. -/
  | help
  /-- Something is missing, wrong or superfluous. -/
  | misuse
  deriving DecidableEq, Repr

/-- What has been asked for so far. -/
structure Progress where
  snapshot : Option Text := none
  request : Arguments := { snapshot := [] }
  /-- Whether there was something superfluous. -/
  superfluous : Bool := false

namespace Progress

/-- Leaves an option with no value. -/
def setNothing (p : Progress) : Flag → Except Refusal Progress
  | .config => .ok { p with request := { p.request with config := none } }
  | .instrument => .ok { p with request := { p.request with instrument := some (.list []) } }
  | .loopCount => .ok { p with request := { p.request with loopCount := some (.list []) } }
  | _ => .error .misuse

def set (p : Progress) (f : Flag) (value : Text) : Except Refusal Progress :=
  if value = twoDashes then p.setNothing f
  else
    match f with
    | .config => .ok { p with request := { p.request with config := some value } }
    | .instrument => .ok { p with request := { p.request with instrument := some (.text value) } }
    | .loopCount =>
      match Numeral.wholeText? value with
      | some n => .ok { p with request := { p.request with loopCount := some (.int n) } }
      | none => .error .misuse
    | _ => .error .misuse

def turnOn (p : Progress) : Flag → Except Refusal Progress
  | .help => .error .help
  | .noCompress => .ok { p with request := { p.request with noCompress := true } }
  | .verbose => .ok { p with request := { p.request with verbose := true } }
  | _ => .error .misuse

def turnOnAll (p : Progress) : List Flag → Except Refusal Progress
  | [] => .ok p
  | f :: rest => do
    let p ← p.turnOn f
    p.turnOnAll rest

/-- Takes a name, which is superfluous when there is one already. -/
def name (p : Progress) (word : Text) : Progress :=
  match p.snapshot with
  | none => { p with snapshot := some word }
  | some _ => { p with superfluous := true }

end Progress

/-- Short options that are written together. -/
def cluster? (first : Flag) : Text → Option (List Flag)
  | [] => some [first]
  | p :: rest => do
    let f ← Flag.short? p
    let more ← cluster? f rest
    some (first :: more)

/-- The effect of an option with something attached to it. -/
def applyAttached (p : Progress) (f : Flag) (short : Bool) (attached : Text) :
    Except Refusal Progress :=
  if f.takesValue then p.set f attached
  else if short && !attached.isEmpty then
    match cluster? f attached with
    | some flags => p.turnOnAll flags
    | none => .error .misuse
  else .error .misuse

/-- The effect of classified arguments. The separator goes with the name beside it. -/
def apply : Progress → List Item → Except Refusal Progress
  | p, [] => .ok p
  | p, .unknown :: rest => apply { p with superfluous := true } rest
  | p, .separator :: rest =>
    let separatesName := p.snapshot.isNone && !rest.isEmpty
    apply { p with superfluous := p.superfluous || !separatesName } rest
  | p, .word w :: .separator :: rest =>
    apply { p.name w with superfluous := p.superfluous || p.snapshot.isSome } rest
  | p, .word w :: rest => apply (p.name w) rest
  | p, .flag f short (some attached) :: rest => do
    let p ← applyAttached p f short attached
    apply p rest
  | p, .flag f _ none :: rest =>
    if f.takesValue then
      match rest with
      | .word w :: rest => do
        let p ← p.set f w
        apply p rest
      | _ => .error .misuse
    else do
      let p ← p.turnOn f
      apply p rest

def Arguments.parse (arguments : List Text) : Except Refusal Arguments :=
  match classifyAll arguments with
  | none => .error .misuse
  | some items => do
    let p ← apply {} items
    match p.snapshot, p.superfluous with
    | some snapshot, false => return { p.request with snapshot }
    | _, _ => throw .misuse

end Barline.CommandLine
