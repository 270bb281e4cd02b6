import Barline.Double.Shortest

/-!
# Printing doubles — where the point goes

The shortest digits are laid out with the point among them, or with zeros filled in, as long as the decimal
exponent lies within the bounds of the layout; beyond, one digit stands before the point and the exponent
follows. A whole number keeps one zero behind its point.
-/

namespace Barline.Double

/-- How digits are laid out. -/
structure Layout where
  /-- The least decimal exponent that is written out with zeros. -/
  leastPositional : Int
  /-- The greatest decimal exponent that is written out with zeros. -/
  greatestPositional : Int
  /-- The least number of digits of a written exponent. -/
  exponentWidth : Nat

/-- Exponents from -4 to 15 are written out; the others have a sign and two digits at least. -/
def layout : Layout := ⟨-4, 15, 2⟩

namespace Layout

/-- Digits with the point behind the first `point` of them. -/
def positional (digits : List Char) (point : Int) : List Char :=
  if point ≤ 0 then '0' :: '.' :: (List.replicate (-point).toNat '0' ++ digits)
  else
    let width := point.toNat
    if digits.length ≤ width then
      digits ++ List.replicate (width - digits.length) '0' ++ ['.', '0']
    else digits.take width ++ '.' :: digits.drop width

def exponentText (l : Layout) (e : Int) : List Char :=
  let digits := Nat.toDigits 10 e.natAbs
  (if e < 0 then '-' else '+') :: (List.replicate (l.exponentWidth - digits.length) '0' ++ digits)

/-- One digit before the point, the others behind it, and the exponent. -/
def scientific (l : Layout) (digits : List Char) (e : Int) : List Char :=
  let tail := digits.drop 1
  digits.take 1 ++ (if tail.isEmpty then [] else '.' :: tail) ++ 'e' :: l.exponentText e

/-- Digits without the zeros at their end. -/
def significant (digits : List Char) : List Char :=
  (digits.reverse.dropWhile (· = '0')).reverse

/-- The significant digits of an expansion, laid out. -/
def expansion (l : Layout) (x : Expansion) : List Char :=
  let all := Nat.toDigits 10 x.digits
  let digits := significant all
  let point := x.exponent + all.length
  let e := point - 1
  if l.leastPositional ≤ e ∧ e ≤ l.greatestPositional then positional digits point
  else l.scientific digits e

end Layout

def magnitudeText (rank : Nat) : List Char :=
  if rank = 0 then ['0', '.', '0'] else layout.expansion (shortest rank)

/-- The text of a double: the shortest digits that read back. -/
def text : Double → String
  | nan => "nan"
  | infinite negative => if negative then "-inf" else "inf"
  | finite negative rank =>
    String.ofList (if negative then '-' :: magnitudeText rank else magnitudeText rank)

end Barline.Double
