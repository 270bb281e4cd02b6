/-!
# Sources — the characters of a document with their places

The layout of a document carries meaning, so every character is kept with its line and its column. A source ends
with a null character, which no document may contain, so that there is always a character to look at.

Line ends are made uniform first. Of the other control characters only the tab is allowed.
-/

namespace Barline.Yaml

/-- Why a document cannot be loaded. -/
inductive LoadError where
  /-- The text is no document. -/
  | malformed
  /-- A number has a base but no digits. -/
  | noDigits (base : Nat)
  /-- A digit group is beyond the limit. -/
  | tooManyDigits (count : Nat)
  /-- A number in base sixty with a point has a part whose weight is beyond all doubles. -/
  | weightTooLarge
  /-- An escape has a number that no code point has. -/
  | noCodePoint
  /-- An escape has a number that needs more than 31 bits. -/
  | escapeTooLarge
  deriving DecidableEq, Repr

/-- A character with its place. -/
structure Placed where
  char : Char
  index : Nat
  line : Nat
  column : Nat
  deriving Repr

/-- The characters that are left of a document. -/
abbrev Source := List Placed

/-! ## Classes of characters -/

def isAllowed (c : Char) : Bool :=
  let n := c.toNat
  n == 0x09 || n == 0x0A || (0x20 ≤ n && n ≤ 0x7E) || n == 0x85 || (0xA0 ≤ n && n ≤ 0xFFFD) ||
    0x10000 ≤ n

def isBreak (c : Char) : Bool :=
  c = '\n' || c = '\x85' || c = '\u2028' || c = '\u2029'

/-- Characters that end a line, or separate, or end the document. -/
def isGap (c : Char) : Bool :=
  c = '\x00' || c = ' ' || c = '\t' || isBreak c

/-- Brackets and the comma, which belong to the flow style. -/
def isFlowMark (c : Char) : Bool :=
  c = ',' || c = '[' || c = ']' || c = '\x7b' || c = '\x7d'

/-- What a line end means in the text of a scalar. -/
def breakChar (c : Char) : Char :=
  if c = '\x85' then '\n' else c

/-! ## Placing characters -/

/-- Turns carriage returns, with or without a line feed behind, into line feeds. -/
def uniformBreaks : List Char → List Char
  | [] => []
  | '\r' :: '\n' :: rest => '\n' :: uniformBreaks rest
  | '\r' :: rest => '\n' :: uniformBreaks rest
  | c :: rest => c :: uniformBreaks rest

/-- Characters with their places, from a given place on. A byte order mark takes no column. -/
def placeFrom (index line column : Nat) : List Char → Source
  | [] => [⟨'\x00', index, line, column⟩]
  | c :: rest =>
    ⟨c, index, line, column⟩ ::
      if isBreak c then placeFrom (index + 1) (line + 1) 0 rest
      else placeFrom (index + 1) line (if c = '\ufeff' then column else column + 1) rest

/-- The source of a text, without a byte order mark at its beginning. -/
def source (text : String) : Except LoadError Source :=
  let cs := uniformBreaks text.toList
  if cs.all isAllowed then
    let placed := placeFrom 0 0 0 cs
    .ok (if cs.head? = some '\ufeff' then placed.drop 1 else placed)
  else .error .malformed

/-! ## Looking ahead -/

/-- The character at a distance; null beyond the end. -/
def peek (s : Source) (n : Nat) : Char :=
  ((s[n]?).map Placed.char).getD '\x00'

def next (s : Source) : Char :=
  peek s 0

def column (s : Source) : Nat :=
  ((s.head?).map Placed.column).getD 0

/-- The leading characters of a class. -/
def spanWhile (p : Char → Bool) : Source → List Char × Source
  | [] => ([], [])
  | c :: rest =>
    if p c.char then
      let (taken, left) := spanWhile p rest
      (c.char :: taken, left)
    else ([], c :: rest)

/-- What is left behind the leading characters of a class. -/
def skipWhile (p : Char → Bool) (s : Source) : Source :=
  s.dropWhile fun c => p c.char

/-- Whether three equal characters stand here by themselves, as they do between documents. -/
def isMarker (mark : Char) (s : Source) : Bool :=
  peek s 0 = mark && peek s 1 = mark && peek s 2 = mark && isGap (peek s 3)

/-- Whether a document begins or ends here. -/
def atMarker (s : Source) : Bool :=
  isMarker '-' s || isMarker '.' s

end Barline.Yaml
