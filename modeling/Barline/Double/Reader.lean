import Barline.Double.Rounding

/-!
# Reading doubles — decimals and the named values

A text denotes the double nearest to the decimal it spells. The words inf, infinity and nan, in any mixture of
cases and with an optional sign, are the values that no decimal spells.
-/

namespace Barline.Double

/-- A word in lower case, as far as ASCII letters go. -/
def lowerWord (cs : List Char) : String :=
  String.ofList (cs.map Char.toLower)

/-- The named values, with the sign already read. -/
def ofWord? (negative : Bool) (cs : List Char) : Option Double :=
  let word := lowerWord cs
  if word = "inf" ∨ word = "infinity" then some (infinite negative)
  else if word = "nan" then some nan
  else none

def read? (cs : List Char) : Option Double :=
  let (negative, body) := Numeral.splitSign cs
  match ofWord? negative body with
  | some d => some d
  | none => (Numeral.Decimal.unsigned? negative body).map ofDecimal

end Barline.Double
