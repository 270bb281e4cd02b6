import Barline.Text.Basic
import Barline.Text.Printable

/-!
# Quoted texts — how a message shows a text

A text is shown between single quotes, or between double quotes when it holds a single quote and no
double quote. Inside, the backslash and the surrounding quote get a backslash; tab, line feed and carriage
return have letters; every other code point that is not printable is written by its number in two, four or eight
hexadecimal digits.
-/

namespace Barline.Text

/-- The quote that a text is shown in. -/
def quoteOf (t : Text) : Char :=
  if t.contains (.char '\x27') && !t.contains (.char '\x22') then '\x22' else '\x27'

/-- A number in hexadecimal digits, with zeros in front up to the given width. -/
def hexadecimal (width n : Nat) : List Char :=
  let digits := Nat.toDigits 16 n
  List.replicate (width - digits.length) '0' ++ digits

/-- A code point by its number. -/
def showByNumber (n : Nat) : List Char :=
  if n < 0x100 then '\\' :: 'x' :: hexadecimal 2 n
  else if n < 0x10000 then '\\' :: 'u' :: hexadecimal 4 n
  else '\\' :: 'U' :: hexadecimal 8 n

/-- The characters that show one code point inside the given quotes. -/
def showInside (quote : Char) : CodePoint → List Char
  | .surrogate index => showByNumber (CodePoint.surrogate index).toNat
  | .char c =>
    if c = quote ∨ c = '\\' then ['\\', c]
    else if c = '\n' then ['\\', 'n']
    else if c = '\r' then ['\\', 'r']
    else if c = '\t' then ['\\', 't']
    else if isPrintable c then [c]
    else showByNumber c.toNat

/-- A text in quotes. -/
def quoted (t : Text) : String :=
  let quote := quoteOf t
  String.ofList (quote :: t.flatMap (showInside quote) ++ [quote])

end Barline.Text
