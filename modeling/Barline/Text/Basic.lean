/-!
# Texts — sequences of code points

A text is what data and programs are made of. Nearly all of its code points are characters; besides these there are
the 2048 surrogates, which are code points without a character. An escape in a document may spell one, so a text
keeps them apart from each other and from every character.

Numbers, words and blanks contain characters only, so what reads them looks at `Text.chars`, in which one
character stands in for all surrogates.
-/

namespace Barline

/-- A code point: a character or a surrogate, of which there are 2048, counted from D800. -/
inductive CodePoint where
  | char (c : Char)
  | surrogate (index : Fin 2048)
  deriving DecidableEq, Repr

namespace CodePoint

/-- The code point with a number, if there is one. -/
def ofNat? (n : Nat) : Option CodePoint :=
  if n.isValidChar then some (char (Char.ofNat n))
  else if h : n - 0xD800 < 2048 then some (surrogate ⟨n - 0xD800, h⟩)
  else none

def toNat : CodePoint → Nat
  | char c => c.toNat
  | surrogate index => 0xD800 + index

/-- The character of a code point, or the replacement character for a surrogate. -/
def toChar : CodePoint → Char
  | char c => c
  | surrogate _ => '\ufffd'

end CodePoint

/-- A sequence of code points. -/
abbrev Text := List CodePoint

namespace Text

def ofChars (cs : List Char) : Text :=
  cs.map .char

def ofString (s : String) : Text :=
  ofChars s.toList

instance : Coe String Text := ⟨ofString⟩

/-- The characters of a text, with the replacement character for each surrogate. -/
def chars (t : Text) : List Char :=
  t.map CodePoint.toChar

/-- A text as a string, with the replacement character for each surrogate. -/
def toString (t : Text) : String :=
  String.ofList t.chars

/-- Texts one after the other with another text between them. -/
def join (between : Text) (ts : List Text) : Text :=
  List.intercalate between ts

@[simp] theorem chars_ofChars (cs : List Char) : chars (ofChars cs) = cs := by
  simp [chars, ofChars, Function.comp_def, CodePoint.toChar]

@[simp] theorem ofChars_inj {cs ds : List Char} : ofChars cs = ofChars ds ↔ cs = ds :=
  ⟨fun h => by simpa using congrArg chars h, fun h => h ▸ rfl⟩

@[simp] theorem ofString_inj {s t : String} : ofString s = ofString t ↔ s = t := by
  rw [ofString, ofString, ofChars_inj]
  exact ⟨fun h => by simpa using congrArg String.ofList h, fun h => h ▸ rfl⟩

end Text

end Barline
