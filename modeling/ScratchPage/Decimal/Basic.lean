import ScratchPage.Decimal.Binary

/-!
# Decimals

An integer times a power of ten, and the double nearest to it.
-/

namespace ScratchPage
set_option autoImplicit false

/-- The magnitude `digits * 10 ^ exponent`. -/
structure Decimal where
  digits : Nat
  exponent : Int
deriving DecidableEq, Repr

namespace Decimal

/-- The decimal digits of a natural number. -/
def digitChars (n : Nat) : List Char := Nat.toDigits 10 n

/-- The number that a list of decimal digits stands for. -/
def valueOf (digits : List Char) : Nat := digits.foldl (fun n c => n * 10 + (c.toNat - 48)) 0

/-- The number of digits before the decimal point; zero or negative for a magnitude below one. -/
def pointPlace (d : Decimal) : Int := (digitChars d.digits).length + d.exponent

def numerator (d : Decimal) : Nat := d.digits * Nat.pow 10 d.exponent.toNat

def denominator (d : Decimal) : Nat := Nat.pow 10 (-d.exponent).toNat

/-- The magnitude pattern of the nearest double. Magnitudes of `10 ^ 310` and more are infinite and
those below `10 ^ (-330)` are zero, so no large power of ten is computed for them. -/
def nearestBits (d : Decimal) : Nat :=
  if d.digits = 0 then 0
  else if 310 < d.pointPlace then Binary.infinityBits
  else if d.pointPlace < -330 then 0
  else Binary.nearestBits d.numerator d.denominator

/-- The nearest double, or its negative. -/
def toFloat (d : Decimal) (negative : Bool) : Float := Binary.ofMagnitude negative d.nearestBits

end Decimal

end ScratchPage
