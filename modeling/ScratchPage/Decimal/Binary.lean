/-!
# Doubles as exact ratios

A finite double is an integer times a power of two. `ofRatio` is the rounding of a ratio of natural
numbers to the nearest double, a tie going to the even significand; every reading of a number in this
library is one such rounding. All steps are exact arithmetic on natural numbers.
-/

namespace ScratchPage.Binary
set_option autoImplicit false

/-- The bits of the significand that are stored. -/
def fractionBits : Nat := 52

/-- The stored exponent of infinities and of values that are not numbers. -/
def topExponent : Nat := 2047

/-- The exponent of the unit in the last place of the smallest doubles. -/
def leastExponent : Int := -1074

/-- The bit pattern of positive infinity. -/
def infinityBits : Nat := topExponent * Nat.pow 2 fractionBits

/-- The bit pattern without its sign. -/
def magnitudeBits (f : Float) : Nat := f.toBits.toNat % 0x8000000000000000

/-- The sign bit. -/
def isNegative (f : Float) : Bool := decide (0x8000000000000000 ≤ f.toBits.toNat)

/-- The significand of a finite double as an integer. -/
def significand (f : Float) : Nat :=
  let bits := magnitudeBits f
  if bits < Nat.pow 2 fractionBits then bits else bits % Nat.pow 2 fractionBits + Nat.pow 2 fractionBits

/-- The exponent of two that goes with `significand`. -/
def exponent (f : Float) : Int :=
  let bits := magnitudeBits f
  if bits < Nat.pow 2 fractionBits then leastExponent
  else leastExponent + (bits / Nat.pow 2 fractionBits : Nat) - 1

/-- The numerator of a finite double's magnitude. -/
def numerator (f : Float) : Nat := significand f * Nat.pow 2 (exponent f).toNat

/-- The denominator of a finite double's magnitude. -/
def denominator (f : Float) : Nat := Nat.pow 2 (-exponent f).toNat

/-- The double with a given sign and magnitude pattern. -/
def ofMagnitude (negative : Bool) (bits : Nat) : Float :=
  Float.ofBits (UInt64.ofNat (if negative then bits + 0x8000000000000000 else bits))

/-- The quotient rounded to the nearest integer, a tie going to the even one. -/
def roundDiv (num den : Nat) : Nat :=
  let q := num / den
  let r := num % den
  if den < 2 * r ∨ (2 * r = den ∧ q % 2 = 1) then q + 1 else q

/-- The exponent of the highest power of two that is at most `num / den`. -/
def ratioLog2 (num den : Nat) : Int :=
  let e : Int := (num.log2 : Int) - (den.log2 : Int)
  if den * Nat.pow 2 e.toNat ≤ num * Nat.pow 2 (-e).toNat then e else e - 1

/-- The magnitude pattern of the double nearest to `num / den`. -/
def nearestBits (num den : Nat) : Nat :=
  if num = 0 then 0
  else
    let e := max (ratioLog2 num den - fractionBits) leastExponent
    let rounded := roundDiv (num * Nat.pow 2 (-e).toNat) (den * Nat.pow 2 e.toNat)
    min (rounded + (e - leastExponent).toNat * Nat.pow 2 fractionBits) infinityBits

/-- The double nearest to `num / den` or to its negative. -/
def ofRatio (negative : Bool) (num den : Nat) : Float := ofMagnitude negative (nearestBits num den)

/-- The double nearest to an integer. -/
def ofInt (i : Int) : Float := ofRatio (decide (i < 0)) i.natAbs 1

/-- A finite double without a fractional part. -/
def isIntegral (f : Float) : Bool := numerator f % denominator f == 0

/-- The place of a double in the total order of bit patterns: negative zero comes before zero. -/
def orderKey (f : Float) : Int :=
  if isNegative f then -(magnitudeBits f : Int) - 1 else magnitudeBits f

end ScratchPage.Binary
