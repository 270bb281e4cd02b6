import Barline.Power
import Barline.Text.Basic
import Barline.Yaml.Source

/-!
# Scalars — the texts inside a document

A plain scalar goes on until something that cannot belong to it: a comment, a colon before a gap, or, in the
flow style, a bracket or a comma. A quoted scalar goes on until its quote. Both may run over several lines, and
both fold their line ends: a single one becomes a space, of several the first is dropped. In double quotes a
backslash may spell any code point by its number.

The loops take a bound on the number of their rounds, for which the length of the source is enough, since each
round uses up a character.
-/

namespace Barline.Yaml

/-! ## Folding -/

/-- The text of a line end with further line ends behind it. -/
def fold (first : Char) (others : List Char) : List Char :=
  if breakChar first ≠ '\n' then first :: others
  else if others.isEmpty then [' ']
  else others

/-! ## Plain scalars -/

/-- Whether a plain scalar cannot go on with `c`, which has `after` behind it. -/
def endsPlain (inFlow : Bool) (c after : Char) : Bool :=
  isGap c || (c = ':' && (isGap after || (inFlow && isFlowMark after))) ||
    (inFlow && (isFlowMark c || c = '?'))

/-- The characters of a plain scalar up to the next gap. -/
def plainWord (inFlow : Bool) : Source → List Char × Source
  | [] => ([], [])
  | c :: rest =>
    if endsPlain inFlow c.char (next rest) then ([], c :: rest)
    else
      let (word, left) := plainWord inFlow rest
      (c.char :: word, left)

/-- The further line ends between two lines of a plain scalar, and whether the scalar may go on behind them: it
may not when a document ends there. -/
def plainBreaks : Source → List Char × Source × Bool
  | [] => ([], [], true)
  | c :: rest =>
    if c.char = ' ' then plainBreaks rest
    else if isBreak c.char then
      if atMarker rest then ([], rest, false)
      else
        let (others, left, more) := plainBreaks rest
        (breakChar c.char :: others, left, more)
    else ([], c :: rest, true)

/-- The gap behind a word of a plain scalar. -/
structure PlainGap where
  /-- What the gap means if another word follows; empty if none may follow. -/
  text : List Char
  source : Source
  /-- Whether the gap contains a line end. -/
  broken : Bool

def plainGap (s : Source) : PlainGap :=
  let (blanks, s) := spanWhile (· = ' ') s
  match s with
  | [] => ⟨blanks, [], false⟩
  | c :: rest =>
    if isBreak c.char then
      if atMarker rest then ⟨[], rest, true⟩
      else
        match plainBreaks rest with
        | (others, left, true) => ⟨fold c.char others, left, true⟩
        | (_, left, false) => ⟨[], left, true⟩
    else ⟨blanks, c :: rest, false⟩

structure Scanned where
  text : List Char
  source : Source
  /-- Whether a line end was met behind the last word. -/
  broken : Bool

/-- Reads a plain scalar whose further lines have to be indented to a column. The text so far is in reverse, and `gap`
stands before the next word. -/
def plainScalar (inFlow : Bool) (indent : Int) : Nat → List Char → PlainGap → Scanned
  | 0, text, gap => ⟨text.reverse, gap.source, gap.broken⟩
  | rounds + 1, text, gap =>
    if next gap.source = '#' then ⟨text.reverse, gap.source, gap.broken⟩
    else
      let (word, left) := plainWord inFlow gap.source
      if word.isEmpty then ⟨text.reverse, gap.source, gap.broken⟩
      else
        let text := word.reverse ++ (gap.text.reverse ++ text)
        let gap := plainGap left
        if gap.text.isEmpty || (!inFlow && column gap.source < indent) then
          ⟨text.reverse, gap.source, gap.broken⟩
        else plainScalar inFlow indent rounds text gap

/-! ## Quoted scalars -/

/-- What a letter behind a backslash stands for. -/
def escaped? (c : Char) : Option Char :=
  [('0', '\x00'), ('a', '\x07'), ('b', '\x08'), ('t', '\t'), ('\t', '\t'), ('n', '\n'), ('v', '\x0b'),
    ('f', '\x0c'), ('r', '\r'), ('e', '\x1b'), (' ', ' '), ('\x22', '\x22'), ('\\', '\\'), ('/', '/'),
    ('N', '\x85'), ('_', '\xa0'), ('L', '\u2028'), ('P', '\u2029')].lookup c

/-- How many hexadecimal digits follow a letter behind a backslash. -/
def escapeWidth? (c : Char) : Option Nat :=
  [('x', 2), ('u', 4), ('U', 8)].lookup c

def hexValue? (c : Char) : Option Nat :=
  if '0' ≤ c ∧ c ≤ '9' then some (c.toNat - '0'.toNat)
  else if 'a' ≤ c ∧ c ≤ 'f' then some (c.toNat - 'a'.toNat + 10)
  else if 'A' ≤ c ∧ c ≤ 'F' then some (c.toNat - 'A'.toNat + 10)
  else none

/-- The code point with the number that an escape spells. -/
def codePoint (n : Nat) : Except LoadError CodePoint :=
  match CodePoint.ofNat? n with
  | some p => .ok p
  | none => .error (if n < twoPow 31 then .noCodePoint else .escapeTooLarge)

/-- Reads the code point whose number has the given count of hexadecimal digits. -/
def numbered (width : Nat) (s : Source) : Except LoadError CodePoint :=
  match ((s.take width).map Placed.char).mapM hexValue? with
  | none => .error .malformed
  | some values =>
    if values.length = width then codePoint (values.foldl (fun n d => 16 * n + d) 0)
    else .error .malformed

/-- The line ends between two lines of a quoted scalar; no document may begin or end between them. -/
def quotedBreaks : Nat → Source → Except LoadError (List Char × Source)
  | 0, _ => .error .malformed
  | rounds + 1, s =>
    if atMarker s then .error .malformed
    else
      match skipWhile (fun c => c = ' ' || c = '\t') s with
      | [] => .ok ([], [])
      | c :: rest =>
        if isBreak c.char then do
          let (others, left) ← quotedBreaks rounds rest
          return (breakChar c.char :: others, left)
        else return ([], c :: rest)

/-- The gap between two words of a quoted scalar. -/
def quotedGap (s : Source) : Except LoadError (List Char × Source) :=
  let (blanks, left) := spanWhile (fun c => c = ' ' || c = '\t') s
  match left with
  | [] => .error .malformed
  | c :: rest =>
    if c.char = '\x00' then .error .malformed
    else if isBreak c.char then do
      let (others, left) ← quotedBreaks (rest.length + 1) rest
      return (fold c.char others, left)
    else .ok (blanks, left)

/-- Reads what a backslash in double quotes stands for. -/
def escape (s : Source) : Except LoadError (Text × Source) :=
  match s with
  | [] => .error .malformed
  | c :: rest =>
    match escaped? c.char, escapeWidth? c.char with
    | some d, _ => .ok ([.char d], rest)
    | none, some width => do
      let p ← numbered width rest
      return ([p], rest.drop width)
    | none, none =>
      if isBreak c.char then do
        let (cs, left) ← quotedBreaks (rest.length + 1) rest
        return (Text.ofChars cs, left)
      else .error .malformed

/-- Reads a quoted scalar behind its first quote. The text so far is in reverse. -/
def quotedScalar (double : Bool) : Nat → Text → Source → Except LoadError (Text × Source)
  | 0, _, _ => .error .malformed
  | _, _, [] => .error .malformed
  | rounds + 1, text, c :: rest =>
    let quote := if double then '\x22' else '\x27'
    if c.char = quote then
      if !double && next rest = quote then
        quotedScalar double rounds (.char quote :: text) (rest.drop 1)
      else .ok (text.reverse, rest)
    else if double && c.char = '\\' then do
      let (escaped, left) ← escape rest
      quotedScalar double rounds (escaped.reverse ++ text) left
    else if isGap c.char then do
      let (cs, left) ← quotedGap (c :: rest)
      quotedScalar double rounds ((Text.ofChars cs).reverse ++ text) left
    else quotedScalar double rounds (.char c.char :: text) rest

end Barline.Yaml
