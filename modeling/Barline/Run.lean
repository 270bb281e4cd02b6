import Barline.Power
import Barline.Text.Basic

/-!
# Runs — equal neighbours written once

A run is a token with the number of times it stands in a row. `Run.compress` splits a list of tokens into runs
that are as long as possible, and `Run.expand` writes each run out again; a run of less than one token leaves
nothing.
-/

namespace Barline

/-- A token that stands a number of times in a row. -/
structure Run where
  token : Text
  count : Int := 1
  deriving DecidableEq, Repr

namespace Run

/-- A run as a token of the program: a token that stands once is written as it is. -/
def text (r : Run) : Text :=
  if 1 < r.count then "Pn(" ++ r.token ++ ", " ++ toString r.count ++ ")"
  else r.token

/-- Puts a token in front of runs, into the first run if it is one of the same token. -/
def push (token : Text) : List Run → List Run
  | [] => [⟨token, 1⟩]
  | r :: rest =>
    if token = r.token then ⟨r.token, r.count + 1⟩ :: rest else ⟨token, 1⟩ :: r :: rest

/-- The longest runs of equal tokens. -/
def compress (tokens : List Text) : List Run :=
  tokens.foldr push []

/-- The tokens of a list of runs. -/
def expand (runs : List Run) : List Text :=
  runs.flatMap fun r => List.replicate r.count.toNat r.token

@[simp] theorem compress_nil : compress [] = [] := rfl

@[simp] theorem compress_cons (token : Text) (tokens : List Text) :
    compress (token :: tokens) = push token (compress tokens) := rfl

@[simp] theorem expand_nil : expand [] = [] := rfl

@[simp] theorem expand_cons (r : Run) (runs : List Run) :
    expand (r :: runs) = List.replicate r.count.toNat r.token ++ expand runs := rfl

/-- The texts of tokens, with equal neighbours written once if that is wanted. -/
def texts (compressed : Bool) (tokens : List Text) : List Text :=
  if compressed then (compress tokens).map text else tokens

/-! ## Runs that are too long -/

/-- Why the tokens of runs cannot be listed. -/
inductive Excess where
  /-- A count is too large, in size, to be the length of any list. -/
  | noLength
  /-- There is no room for that many tokens. -/
  | noRoom
  deriving DecidableEq, Repr

/-- The wording of an excess; a lack of room has none. -/
def Excess.message : Excess → String
  | noLength => "cannot fit 'int' into an index-sized integer"
  | noRoom => ""

/-- One more than the greatest length of a list; lengths have 64 bits with a sign. -/
def lengthBound : Nat := twoPow 63

/-- One more than the greatest number of tokens in a run that there is room for. -/
def roomBound : Nat := twoPow 32

/-- Why the tokens of a run cannot be listed, if they cannot. -/
def excess? (r : Run) : Option Excess :=
  if r.count < -lengthBound || lengthBound ≤ r.count then some .noLength
  else if roomBound ≤ r.count then some .noRoom
  else none

/-- Lists the tokens of runs, unless there are too many. -/
def list (runs : List Run) : Except Excess (List Text) :=
  match runs.findSome? excess? with
  | some e => .error e
  | none => .ok (expand runs)

end Run

end Barline
