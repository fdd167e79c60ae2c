import ScratchPage.Decimal.Numeral
import ScratchPage.Json.Basic

/-!
# The value of a JSON number

The digits of a number are collected in 64 bits; a digit that no longer fits is dropped with all that
follow it in the same part, and dropped integer digits count in the exponent. The significand is then
scaled by one multiplication or division with a power of ten. The result can differ in the last place
from the nearest double.
-/

namespace ScratchPage.Json
set_option autoImplicit false

/-- The parts of a JSON number. `fraction` holds the digits after the point when there is one, and
`exponent` the sign and the digits of the exponent. -/
structure NumberToken where
  negative : Bool
  whole : List Char
  fraction : Option (List Char)
  exponent : Option (Bool × List Char)

/-- The largest significand. -/
def significandLimit : Nat := 0xffffffffffffffff

/-- The largest exponent that is counted. -/
def exponentLimit : Nat := 0x7fffffff

/-- Appends digits to a significand while it fits; also the number of digits taken. -/
def takeDigits (significand : Nat) : List Char → Nat × Nat
  | [] => (significand, 0)
  | c :: rest =>
    let next := significand * 10 + (c.toNat - 48)
    if significandLimit < next then (significand, 0)
    else
      let (total, taken) := takeDigits next rest
      (total, taken + 1)

/-- The double nearest to a power of ten. -/
def powerOfTen (n : Nat) : Float := Decimal.toFloat ⟨1, n⟩ false

/-- A double times a power of ten; none when the result is out of range. -/
def scaleByTen (f : Float) (e : Int) : Option Float :=
  if e.natAbs ≤ 308 then
    if 0 ≤ e then
      let scaled := f * powerOfTen e.natAbs
      if scaled.isInf then none else some scaled
    else some (f / powerOfTen e.natAbs)
  else if f == 0 then some f
  else if 0 < e then none
  else scaleByTen (f / powerOfTen 308) (e + 308)
termination_by e.natAbs

/-- The exponent to apply after the collected digits; none for an exponent that is not counted. -/
def NumberToken.scale? (t : NumberToken) (start : Int) : Option Int :=
  match t.exponent with
  | none => some start
  | some (negative, digits) =>
    let n := Decimal.valueOf digits
    if exponentLimit < n then none else some (if negative then start - n else start + n)

/-- The exponent is written with a minus sign. -/
def NumberToken.shrinks (t : NumberToken) : Bool :=
  match t.exponent with
  | some (negative, _) => negative
  | none => false

/-- The value of a number; none when it is out of range. -/
def NumberToken.value? (t : NumberToken) : Option Number :=
  let (first, taken) := takeDigits 0 t.whole
  let dropped := t.whole.length - taken
  let (significand, places) := takeDigits first (t.fraction.getD [])
  let signed (f : Float) : Number := .double (if t.negative then -f else f)
  if t.fraction.isNone && t.exponent.isNone && dropped == 0 then
    if !t.negative then some (.int significand)
    else if significand ≠ 0 ∧ significand ≤ 0x8000000000000000 then some (.int (-(significand : Int)))
    else some (signed (Binary.ofInt significand))
  else
    match t.scale? ((dropped : Int) - places) with
    | some e => (scaleByTen (Binary.ofInt significand) e).map signed
    | none => if t.shrinks || significand == 0 then some (signed 0) else none

end ScratchPage.Json
