import Barline.Text.Basic

/-!
# Blank characters — what trimming takes off a text

The blanks are the white space of Unicode together with the four information separators
(001C to 001F). A text is blank when it holds nothing else, and `trim` takes the blanks off both ends
and leaves those inside alone.

A second, smaller class serves whole-number texts: there the information separators are ordinary
characters (`isNumeralBlank`).
-/

namespace Barline.Text

/-- Blank characters: Unicode white space and the information separators. -/
def isBlank (c : Char) : Bool :=
  let n := c.toNat
  (0x09 ≤ n && n ≤ 0x0D) || (0x1C ≤ n && n ≤ 0x20) || n == 0x85 || n == 0xA0 || n == 0x1680 ||
    (0x2000 ≤ n && n ≤ 0x200A) || n == 0x2028 || n == 0x2029 || n == 0x202F || n == 0x205F ||
    n == 0x3000

/-- The blanks that may surround a whole number: all but the information separators. -/
def isNumeralBlank (c : Char) : Bool :=
  isBlank c && !(0x1C ≤ c.toNat && c.toNat ≤ 0x1F)

/-- Takes the elements of a class off both ends of a list. -/
def trimBoth {α : Type} (p : α → Bool) (xs : List α) : List α :=
  ((xs.dropWhile p).reverse.dropWhile p).reverse

/-- Takes the blanks off both ends of a text. -/
def trim (t : Text) : Text :=
  trimBoth (fun p => isBlank p.toChar) t

/-- The characters of a text without the blanks at its two ends. -/
def trimmed (t : Text) : List Char :=
  chars (trim t)

/-- A text of blanks only; the empty text is one. -/
def isBlankText (t : Text) : Bool :=
  t.all fun p => isBlank p.toChar

end Barline.Text
