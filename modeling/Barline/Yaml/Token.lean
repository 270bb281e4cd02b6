import Barline.Yaml.Scalar

/-!
# Tokens — the marks and scalars of a document

The tokens of a document are its scalars, its marks, and the beginnings and ends of blocks, which the layout
gives: a block begins where a column is greater than all open ones and ends where the text falls back.

A mapping key is known for one only when its colon is met. Until then every token that may turn out to be a key
is a *candidate*; it has to stand on one line with its colon and within 1024 characters of it. A candidate at the
column of the block must become a key.

A document may turn out to be wrong only after some of its tokens have been used, so a fault is a token too, behind all
those that can be used without it.
-/

namespace Barline.Yaml

inductive Token where
  | documentStart
  | documentEnd
  | blockSequenceStart
  | blockMappingStart
  | blockEnd
  | flowSequenceStart
  | flowSequenceEnd
  | flowMappingStart
  | flowMappingEnd
  | blockEntry
  | flowEntry
  | key
  | value
  | plain (cs : List Char)
  | quoted (text : Text)
  /-- The document cannot be read any further. -/
  | fault (e : LoadError)
  deriving DecidableEq, Repr

/-- Why tokens cannot go on like this: for the fault that stands next, if one does. -/
def Token.refusal : List Token → LoadError
  | fault e :: _ => e
  | _ => .malformed

/-- A token that may turn out to be a mapping key. -/
structure Candidate where
  /-- The number of tokens before it. -/
  position : Nat
  /-- Whether it has to be a key. -/
  required : Bool
  index : Nat
  line : Nat
  column : Nat

/-- A document that is read as far as its tokens go. -/
structure Scanner where
  /-- The length of the whole document, which bounds every loop over what is left of it. -/
  bound : Nat
  source : Source
  /-- The tokens, the latest first. -/
  tokens : List Token
  /-- How many tokens there are. -/
  count : Nat
  /-- How many flow collections are open. -/
  depth : Nat
  /-- The column of the innermost block, -1 outside of all blocks. -/
  indent : Int
  /-- The columns of the blocks around it, from the inside out. -/
  outer : List Int
  /-- Whether a key may begin here. -/
  mayBeKey : Bool
  /-- The candidates, each with the depth at which it stands. -/
  candidates : List (Nat × Candidate)

namespace Scanner

/-- A document of which nothing has been read. -/
def start (source : Source) : Scanner :=
  ⟨source.length, source, [], 0, 0, -1, [], true, []⟩

/-! ## Steps of the scanner -/

def emit (s : Scanner) (t : Token) : Scanner :=
  { s with tokens := t :: s.tokens, count := s.count + 1 }

/-- Adds a token that is written with a number of characters. -/
def take (s : Scanner) (length : Nat) (t : Token) : Scanner :=
  { s with source := s.source.drop length }.emit t

def insert (s : Scanner) (position : Nat) (t : Token) : Scanner :=
  let later := s.count - position
  { s with tokens := s.tokens.take later ++ t :: s.tokens.drop later, count := s.count + 1 }

/-- Closes the blocks that lie to the right of a column: the block that is left, the blocks around it, and how many
were closed. -/
def closeBlocks (column : Int) : Int → List Int → Int × List Int × Nat
  | indent, [] => (indent, [], 0)
  | indent, outer :: others =>
    if column < indent then
      let (indent, others, closed) := closeBlocks column outer others
      (indent, others, closed + 1)
    else (indent, outer :: others, 0)

/-- Falls back to a column, outside of flow collections. -/
def unwind (s : Scanner) (column : Int) : Scanner :=
  if s.depth ≠ 0 then s
  else
    let (indent, outer, closed) := closeBlocks column s.indent s.outer
    { s with
      indent, outer
      tokens := List.replicate closed .blockEnd ++ s.tokens
      count := s.count + closed }

def opens (s : Scanner) (column : Nat) : Bool :=
  s.indent < column

def openBlock (s : Scanner) (column : Nat) : Scanner :=
  { s with indent := column, outer := s.indent :: s.outer }

/-- Opens a block at the current column if that is new. -/
def openHere (s : Scanner) (t : Token) : Scanner :=
  let here := column s.source
  if s.opens here then (s.openBlock here).emit t else s

/-! ## Candidates -/

/-- Gives up the candidates that can no longer meet their colon. -/
def dropStale (s : Scanner) : Except LoadError Scanner :=
  match s.source with
  | [] => .ok s
  | c :: _ =>
    let stale (k : Candidate) : Bool := k.line ≠ c.line || 1024 < c.index - k.index
    if s.candidates.any fun (_, k) => stale k && k.required then .error .malformed
    else .ok { s with candidates := s.candidates.filter fun (_, k) => !stale k }

/-- Gives up the candidate at the current depth. -/
def forget (s : Scanner) : Except LoadError Scanner :=
  if s.candidates.any fun (d, k) => d = s.depth && k.required then .error .malformed
  else .ok { s with candidates := s.candidates.filter fun (d, _) => d ≠ s.depth }

/-- Makes the token that begins here a candidate, if a key may begin here. -/
def remember (s : Scanner) : Except LoadError Scanner :=
  if s.mayBeKey then do
    let s ← s.forget
    match s.source with
    | [] => return s
    | c :: _ =>
      let required := s.depth = 0 && s.indent = c.column
      let k : Candidate := ⟨s.count, required, c.index, c.line, c.column⟩
      return { s with candidates := (s.depth, k) :: s.candidates }
  else .ok s

/-! ## Tokens of each kind -/

def scanMarker (s : Scanner) (t : Token) : Except LoadError Scanner := do
  let s ← (s.unwind (-1)).forget
  return { s with mayBeKey := false }.take 3 t

def scanOpening (s : Scanner) (t : Token) : Except LoadError Scanner := do
  let s ← s.remember
  return { s with depth := s.depth + 1, mayBeKey := true }.take 1 t

def scanClosing (s : Scanner) (t : Token) : Except LoadError Scanner := do
  let s ← s.forget
  return { s with depth := s.depth - 1, mayBeKey := false }.take 1 t

/-- A comma between the entries of a flow collection. -/
def scanComma (s : Scanner) : Except LoadError Scanner := do
  let s ← s.forget
  return { s with mayBeKey := true }.take 1 .flowEntry

def scanDash (s : Scanner) : Except LoadError Scanner := do
  if s.depth = 0 ∧ s.mayBeKey = false then throw .malformed
  let s := if s.depth = 0 then s.openHere .blockSequenceStart else s
  let s ← s.forget
  return { s with mayBeKey := true }.take 1 .blockEntry

def scanQuestion (s : Scanner) : Except LoadError Scanner := do
  if s.depth = 0 ∧ s.mayBeKey = false then throw .malformed
  let s := if s.depth = 0 then s.openHere .blockMappingStart else s
  let s ← s.forget
  return { s with mayBeKey := s.depth = 0 }.take 1 .key

/-- A colon behind a candidate, which makes it a key; it may be the first key of a block. -/
def scanColonAfter (s : Scanner) (k : Candidate) : Scanner :=
  let s := { s with candidates := s.candidates.filter fun (d, _) => d ≠ s.depth }
  let s := s.insert k.position .key
  let s :=
    if s.depth = 0 ∧ s.opens k.column = true then
      (s.openBlock k.column).insert k.position .blockMappingStart
    else s
  { s with mayBeKey := false }.take 1 .value

/-- A colon without a candidate. -/
def scanLoneColon (s : Scanner) : Except LoadError Scanner := do
  if s.depth = 0 ∧ s.mayBeKey = false then throw .malformed
  let s := if s.depth = 0 then s.openHere .blockMappingStart else s
  let s ← s.forget
  return { s with mayBeKey := s.depth = 0 }.take 1 .value

/-- A colon before a value. -/
def scanColon (s : Scanner) : Except LoadError Scanner :=
  match s.candidates.lookup s.depth with
  | some k => .ok (s.scanColonAfter k)
  | none => s.scanLoneColon

def scanQuoted (s : Scanner) (double : Bool) : Except LoadError Scanner := do
  let s ← s.remember
  let (text, left) ← quotedScalar double s.bound [] (s.source.drop 1)
  return { s with source := left, mayBeKey := false }.emit (.quoted text)

def scanPlain (s : Scanner) : Except LoadError Scanner := do
  let s ← s.remember
  let scanned :=
    plainScalar (s.depth ≠ 0) (s.indent + 1) s.bound [] ⟨[], s.source, false⟩
  return { s with source := scanned.source, mayBeKey := scanned.broken }.emit (.plain scanned.text)

/-! ## The scanner -/

/-- Characters that cannot begin a plain scalar by themselves. -/
def isIndicator (c : Char) : Bool :=
  isGap c || isFlowMark c ||
    ['-', '?', ':', '#', '&', '*', '!', '|', '>', '\x27', '\x22', '%', '@', '\x60'].contains c

/-- Whether a plain scalar may begin with `c`, which has `after` behind it. -/
def beginsPlain (inFlow : Bool) (c after : Char) : Bool :=
  !isIndicator c || (!isGap after && (c = '-' || (!inFlow && (c = '?' || c = ':'))))

/-- Skips blanks, comments and line ends; outside of flow collections a key may begin on a new line. -/
def skipGaps (inFlow : Bool) : Nat → Bool → Source → Bool × Source
  | 0, mayBeKey, s => (mayBeKey, s)
  | rounds + 1, mayBeKey, s =>
    let s := skipWhile (· = ' ') s
    let s := if next s = '#' then skipWhile (fun c => !isBreak c && c ≠ '\x00') s else s
    if isBreak (next s) then skipGaps inFlow rounds (mayBeKey || !inFlow) (s.drop 1)
    else (mayBeKey, s)

def scanToken (s : Scanner) : Except LoadError Scanner :=
  let c := next s.source
  let after := peek s.source 1
  let inFlow := s.depth ≠ 0
  let atLineStart := column s.source = 0
  if atLineStart ∧ c = '%' then .error .malformed
  else if atLineStart ∧ isMarker '-' s.source = true then s.scanMarker .documentStart
  else if atLineStart ∧ isMarker '.' s.source = true then s.scanMarker .documentEnd
  else if c = '[' then s.scanOpening .flowSequenceStart
  else if c = '\x7b' then s.scanOpening .flowMappingStart
  else if c = ']' then s.scanClosing .flowSequenceEnd
  else if c = '\x7d' then s.scanClosing .flowMappingEnd
  else if c = ',' then s.scanComma
  else if c = '-' ∧ isGap after = true then s.scanDash
  else if c = '?' ∧ (inFlow ∨ isGap after = true) then s.scanQuestion
  else if c = ':' ∧ (inFlow ∨ isGap after = true) then s.scanColon
  else if c = '\x27' then s.scanQuoted false
  else if c = '\x22' then s.scanQuoted true
  else if beginsPlain inFlow c after then s.scanPlain
  else .error .malformed

/-- Reads the next token, or closes everything at the end of the document, where it gives all tokens. -/
def step (s : Scanner) : Except LoadError (Scanner ⊕ List Token) := do
  let (mayBeKey, source) := skipGaps (s.depth ≠ 0) s.bound s.mayBeKey s.source
  let s ← { s with mayBeKey, source }.dropStale
  let s := s.unwind (column s.source)
  if next s.source = '\x00' then
    let s ← (s.unwind (-1)).forget
    return .inr s.tokens.reverse
  else
    let s ← s.scanToken
    return .inl s

/-- The tokens that can be used before more is read: all before the first candidate, because another token may have
to go before that one. -/
def settled (s : Scanner) : List Token :=
  let current (k : Candidate) : Bool :=
    match s.source with
    | [] => true
    | c :: _ => k.line = c.line && c.index - k.index ≤ 1024
  let waiting := (s.candidates.filter fun (_, k) => current k).map fun (_, k) => k.position
  (s.tokens.drop (s.count - waiting.foldl min s.count)).reverse

/-- Reads all tokens, each of which takes a round and at least one character. Where the document cannot be read any
further, a fault follows the tokens that can be used. -/
def run : Nat → Scanner → List Token
  | 0, s => s.settled ++ [.fault .malformed]
  | rounds + 1, s =>
    match s.step with
    | .error e => s.settled ++ [.fault e]
    | .ok (.inr tokens) => tokens
    | .ok (.inl s) => run rounds s

end Scanner

def tokens (text : String) : Except LoadError (List Token) := do
  let s ← source text
  let start := Scanner.start s
  return Scanner.run (start.bound + 1) start

end Barline.Yaml
