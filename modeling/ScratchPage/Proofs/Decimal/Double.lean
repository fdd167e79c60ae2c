import Mathlib
import ScratchPage.Decimal.Basic

/-!
# Bit patterns of doubles

A double keeps the pattern it is made of, unless that is one of the many patterns of what is not a
number. The patterns that rounding gives are at most that of infinity, so a decimal is rounded to a
number or to an infinity (`isNaN_toFloat`).
-/

namespace ScratchPage
set_option autoImplicit false

namespace Binary

open Float.Model Float.Model.UnpackedFloat

/-- The bits of a double. -/
abbrev Pattern : Type := BitVec Format.binary64.numBits

theorem toNat_unpackExponent (b : Pattern) : (unpackExponent b).toNat = b.toNat / 2 ^ 52 % 2 ^ 11 := by
  simp [unpackExponent, Nat.shiftRight_eq_div_pow]

theorem toNat_unpackMantissa (b : Pattern) : (unpackMantissa b).toNat = b.toNat % 2 ^ 52 := by
  simp [unpackMantissa, Nat.shiftRight_eq_div_pow]

/-- The pattern, apart from its sign, is not above that of infinity. -/
def IsNumber (b : Pattern) : Prop := b.toNat % 2 ^ 63 ≤ infinityBits

namespace IsNumber

/-- A number with the top exponent is infinite, so nothing is in its mantissa. -/
theorem mantissa_eq_zero {b : Pattern} (number : IsNumber b) (top : unpackExponent b = -1) :
    unpackMantissa b = 0 := by
  have exponent := toNat_unpackExponent b
  have mantissa := toNat_unpackMantissa b
  have all : (unpackExponent b).toNat = 2047 := by rw [top]; rfl
  have least : b.toNat % 2 ^ 63 ≤ 2047 * 2 ^ 52 := number
  apply BitVec.eq_of_toNat_eq
  change (unpackMantissa b).toNat = 0
  omega

theorem not_isNaNBits {b : Pattern} (number : IsNumber b) : ¬ isNaNBits b = true := by
  intro isNaN
  obtain ⟨top, fraction⟩ := of_decide_eq_true isNaN
  exact fraction (number.mantissa_eq_zero top)

theorem valid {b : Pattern} (number : IsNumber b) : Format.binary64.Valid b where
  eq_packedNaN top fraction := absurd (number.mantissa_eq_zero top) fraction

theorem ne_packedNaN {b : Pattern} (number : IsNumber b) : b ≠ packedNaN .binary64 := by
  rintro rfl
  exact number.not_isNaNBits isNaNBits_packedNaN

end IsNumber

/-- A number keeps the pattern it is made of. -/
theorem IsNumber.toBits_ofBits {bits : UInt64} (number : IsNumber bits.toBitVec) :
    (Float.ofBits bits).toBits = bits := by
  have same : UnpackedFloat.pack .binary64 (UnpackedFloat.unpack .binary64 bits.toBitVec) = bits.toBitVec :=
    pack_unpack_of_valid number.valid
  exact UInt64.toBitVec_inj.1 same

theorem isNaN_ofBits {bits : UInt64} (number : IsNumber bits.toBitVec) : (Float.ofBits bits).isNaN = false := by
  have same := congrArg UInt64.toBitVec number.toBits_ofBits
  change (UnpackedFloat.unpack .binary64 (Float.ofBits bits).toBits.toBitVec).isNaN = false
  rw [same, Bool.eq_false_iff, ne_eq, isNaN_unpack_iff_of_valid number.valid]
  exact number.ne_packedNaN

/-- A magnitude up to that of infinity is a number. -/
theorem isNaN_ofMagnitude (negative : Bool) {bits : Nat} (bound : bits ≤ infinityBits) :
    (ofMagnitude negative bits).isNaN = false := by
  have least : bits ≤ 2047 * 2 ^ 52 := bound
  apply isNaN_ofBits
  change (UInt64.ofNat _).toNat % 2 ^ 63 ≤ 2047 * 2 ^ 52
  rw [UInt64.toNat_ofNat']
  cases negative
  · simp only [Bool.false_eq_true, if_false]
    omega
  · simp only [if_true]
    omega

theorem unpackExponent_eq_top {b : Pattern} : unpackExponent b = -1 ↔ infinityBits ≤ b.toNat % 2 ^ 63 := by
  have exponent := toNat_unpackExponent b
  rw [← BitVec.toNat_inj]
  change (unpackExponent b).toNat = 2047 ↔ 2047 * 2 ^ 52 ≤ b.toNat % 2 ^ 63
  omega

/-- The patterns above that of infinity are those of what is not a number. -/
theorem unpack_of_not_isNumber {b : Pattern} (above : ¬ IsNumber b) :
    UnpackedFloat.unpack .binary64 b = .notANumber := by
  have mantissa := toNat_unpackMantissa b
  have beyond : 2047 * 2 ^ 52 < b.toNat % 2 ^ 63 := Nat.lt_of_not_le above
  have fraction : unpackMantissa b ≠ 0 := by
    intro zero
    have none : (unpackMantissa b).toNat = 0 := by rw [zero]; rfl
    omega
  exact (if_pos (unpackExponent_eq_top.2 beyond.le)).trans (if_neg fraction)

theorem isNumber_of_isNaN {bits : UInt64} (number : (Float.ofBits bits).isNaN = false) : IsNumber bits.toBitVec := by
  by_contra above
  change (UnpackedFloat.unpack .binary64 (UnpackedFloat.pack .binary64
    (UnpackedFloat.unpack .binary64 bits.toBitVec))).isNaN = false at number
  rw [unpack_of_not_isNumber above] at number
  exact absurd number (by decide +kernel)

/-- The infinities have the pattern of infinity, apart from their sign. -/
theorem IsNumber.isInf_unpack {b : Pattern} (number : IsNumber b) :
    (UnpackedFloat.unpack .binary64 b).isInf = true ↔ b.toNat % 2 ^ 63 = infinityBits := by
  have infinite : b.toNat % 2 ^ 63 = infinityBits ↔ unpackExponent b = -1 := by
    rw [unpackExponent_eq_top]
    exact ⟨fun top => top.ge, fun top => Nat.le_antisymm number top⟩
  rw [infinite, UnpackedFloat.unpack]
  split_ifs with top fraction zero none
  · exact iff_of_true rfl top
  · exact absurd (number.mantissa_eq_zero top) fraction
  · exact iff_of_false Bool.false_ne_true top
  · exact iff_of_false Bool.false_ne_true top
  · exact iff_of_false Bool.false_ne_true top

/-- A pattern is its sign and the rest. -/
theorem ofMagnitude_parts (f : Float) : ofMagnitude (isNegative f) (magnitudeBits f) = Float.ofBits f.toBits := by
  have bound := f.toBits.toNat_lt
  have pattern : (if isNegative f then magnitudeBits f + 0x8000000000000000 else magnitudeBits f) = f.toBits.toNat := by
    simp only [isNegative, magnitudeBits, decide_eq_true_eq]
    split_ifs <;> omega
  rw [ofMagnitude, pattern, UInt64.ofNat_toNat]

end Binary

namespace Decimal

/-- Nothing is rounded beyond infinity. -/
theorem nearestBits_le (d : Decimal) : d.nearestBits ≤ Binary.infinityBits := by
  unfold nearestBits Binary.nearestBits
  split_ifs
  · exact Nat.zero_le _
  · exact Nat.le_refl _
  · exact Nat.zero_le _
  · exact Nat.zero_le _
  · exact Nat.min_le_right _ _

/-- A decimal is rounded to a number or to an infinity. -/
theorem isNaN_toFloat (d : Decimal) (negative : Bool) : (d.toFloat negative).isNaN = false :=
  Binary.isNaN_ofMagnitude negative d.nearestBits_le

end Decimal

end ScratchPage
