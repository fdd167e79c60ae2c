import ScratchPage.Decimal.Shortest

/-!
# How numbers are written

Generated code writes numbers in plain decimal notation. Project data writes them as JSON, where a
number that is not an integer token always shows a fraction or an exponent.
-/

namespace ScratchPage.Decimal
set_option autoImplicit false

/-- Digits with the decimal point after the first `place` of them, padded with zeros. -/
def pointed (digits : List Char) (place : Int) : List Char × List Char :=
  if place ≤ 0 then (['0'], List.replicate (-place).toNat '0' ++ digits)
  else
    let k := place.toNat
    (digits.take k ++ List.replicate (k - digits.length) '0', digits.drop k)

/-- Plain notation: no exponent, and a point only before a fraction. -/
def plain (d : Decimal) : List Char :=
  if d.digits = 0 then ['0']
  else
    let (whole, fraction) := pointed (digitChars d.digits) d.pointPlace
    if fraction.isEmpty then whole else whole ++ '.' :: fraction

/-- JSON notation: positional from `10 ^ (-5)` up to `10 ^ 16`, always with a fraction, and otherwise
one digit before the point and an exponent that shows its sign. -/
def scientific (d : Decimal) : List Char :=
  if d.digits = 0 then ['0', '.', '0']
  else
    let digits := digitChars d.digits
    let place := d.pointPlace
    if -5 < place ∧ place ≤ 16 then
      let (whole, fraction) := pointed digits place
      whole ++ '.' :: (if fraction.isEmpty then ['0'] else fraction)
    else
      let power := place - 1
      let mantissa := digits.take 1 ++ (if digits.length ≤ 1 then [] else '.' :: digits.drop 1)
      mantissa ++ ['e', if power < 0 then '-' else '+'] ++ digitChars power.natAbs

/-- A minus sign for negative values, negative zero included. -/
def signed (f : Float) (magnitude : List Char) : String :=
  String.ofList (if Binary.isNegative f then '-' :: magnitude else magnitude)

end ScratchPage.Decimal

namespace ScratchPage
set_option autoImplicit false

/-- The literal for a number in generated code. -/
def numberLiteral (f : Float) : String :=
  if f.isNaN then "NaN"
  else if f.isInf then (if Binary.isNegative f then "-Infinity" else "Infinity")
  else Decimal.signed f (Decimal.shortest .up f).plain

end ScratchPage
