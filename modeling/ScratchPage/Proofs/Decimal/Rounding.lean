import Mathlib.Algebra.Order.Field.Power
import Mathlib.Algebra.Order.Floor.Semifield
import Mathlib.Data.Int.Log
import Mathlib.Data.Rat.Floor
import Mathlib.Tactic.Linarith
import Mathlib.Tactic.NormNum
import Mathlib.Tactic.Positivity
import Mathlib.Tactic.Ring
import ScratchPage.Decimal.Basic

/-!
# Rounding to doubles

A magnitude is rounded to a multiple of the unit in the last place that doubles of its size have, a tie going
to the even multiple (`Binary.nearest`). Ratios and decimals are rounded by arithmetic on natural numbers. What
comes out depends on their value alone: it is the rounded value, for ratios (`Binary.nearestBits_eq`) and, though
large and small ones are not computed, for decimals (`Decimal.nearestBits_eq`). So two decimals with one value
are read as one double.
-/

namespace ScratchPage
set_option autoImplicit false

namespace Binary

/-- The integer nearest to a magnitude, a tie going to the even one. -/
def roundEven (x : ℚ) : ℕ :=
  if 1 / 2 < x - ⌊x⌋₊ ∨ (x - ⌊x⌋₊ = 1 / 2 ∧ ⌊x⌋₊ % 2 = 1) then ⌊x⌋₊ + 1 else ⌊x⌋₊

/-- The exponent of the unit in the last place of the doubles around a magnitude. -/
def unitExponent (x : ℚ) : ℤ := max (Int.log 2 x - fractionBits) leastExponent

/-- The magnitude pattern of the double nearest to a magnitude. -/
def nearest (x : ℚ) : ℕ :=
  if x = 0 then 0
  else min (roundEven (x / 2 ^ unitExponent x) + (unitExponent x - leastExponent).toNat * 2 ^ fractionBits)
    infinityBits

/-! ## Powers -/

/-- A power with an integer exponent is a ratio of natural powers. -/
theorem zpow_eq_div (b : ℚ) (e : ℤ) : b ^ e = b ^ e.toNat / b ^ (-e).toNat := by
  obtain ⟨n, rfl | rfl⟩ := e.eq_nat_or_neg
  · simp
  · simp

/-! ## Ratios -/

/-- Rounding by remainders is rounding to the nearest integer, with ties to the even one. -/
theorem roundDiv_eq (num : ℕ) {den : ℕ} (positive : 0 < den) : roundDiv num den = roundEven (num / den) := by
  have floor : ⌊(num / den : ℚ)⌋₊ = num / den := Nat.floor_div_eq_div num den
  have above : (0 : ℚ) < den := by exact_mod_cast positive
  have rest : (num / den : ℚ) - ((num / den : ℕ) : ℚ) = (num % den : ℕ) / den := by
    have split : (num : ℚ) = den * (num / den : ℕ) + (num % den : ℕ) := by exact_mod_cast (Nat.div_add_mod num den).symm
    rw [eq_div_iff above.ne', sub_mul, div_mul_cancel₀ _ above.ne']
    linarith
  have more : (1 / 2 : ℚ) < (num % den : ℕ) / den ↔ den < 2 * (num % den) := by
    rw [lt_div_iff₀ above, div_mul_eq_mul_div, one_mul, div_lt_iff₀ two_pos, mul_comm]
    exact_mod_cast Iff.rfl
  have half : ((num % den : ℕ) / den : ℚ) = 1 / 2 ↔ 2 * (num % den) = den := by
    rw [div_eq_div_iff above.ne' two_ne_zero, one_mul, mul_comm]
    exact_mod_cast Iff.rfl
  simp only [roundDiv, roundEven, floor, rest, more, half]

/-- The bounds that make an exponent the logarithm. -/
theorem log_eq_of_bounds {b : ℕ} (base : 1 < b) {x : ℚ} (positive : 0 < x) {e : ℤ} (low : (b : ℚ) ^ e ≤ x)
    (high : x < (b : ℚ) ^ (e + 1)) : Int.log b x = e := by
  have least := (Int.zpow_le_iff_le_log base positive).1 low
  have most := (Int.lt_zpow_iff_log_lt base positive).1 high
  omega

/-- The logarithms of two numbers leave two exponents for their ratio. -/
theorem ratio_bounds {num den : ℕ} (given : num ≠ 0) (positive : den ≠ 0) :
    (2 : ℚ) ^ ((num.log2 : ℤ) - den.log2 - 1) ≤ num / den ∧
      (num / den : ℚ) < 2 ^ ((num.log2 : ℤ) - den.log2 + 1) := by
  have above : (0 : ℚ) < den := by exact_mod_cast Nat.pos_of_ne_zero positive
  have numLow : (2 : ℚ) ^ (num.log2 : ℤ) ≤ num := by exact_mod_cast Nat.log2_self_le given
  have numHigh : (num : ℚ) < 2 ^ ((num.log2 : ℤ) + 1) := by exact_mod_cast Nat.lt_log2_self (n := num)
  have denLow : (2 : ℚ) ^ (den.log2 : ℤ) ≤ den := by exact_mod_cast Nat.log2_self_le positive
  have denHigh : (den : ℚ) < 2 ^ ((den.log2 : ℤ) + 1) := by exact_mod_cast Nat.lt_log2_self (n := den)
  constructor
  · rw [le_div_iff₀ above]
    calc (2 : ℚ) ^ ((num.log2 : ℤ) - den.log2 - 1) * den
        ≤ 2 ^ ((num.log2 : ℤ) - den.log2 - 1) * 2 ^ ((den.log2 : ℤ) + 1) := by gcongr
      _ = 2 ^ (num.log2 : ℤ) := by rw [← zpow_add₀ two_ne_zero, sub_sub, sub_add_cancel]
      _ ≤ num := numLow
  · rw [div_lt_iff₀ above]
    calc (num : ℚ) < 2 ^ ((num.log2 : ℤ) + 1) := numHigh
      _ = 2 ^ ((num.log2 : ℤ) - den.log2 + 1) * 2 ^ (den.log2 : ℤ) := by
        rw [← zpow_add₀ two_ne_zero, add_right_comm, sub_add_cancel]
      _ ≤ 2 ^ ((num.log2 : ℤ) - den.log2 + 1) * den := by gcongr

/-- The logarithm of a ratio is the greatest power of two that is not above it. -/
theorem ratioLog2_eq {num den : ℕ} (given : num ≠ 0) (positive : den ≠ 0) :
    ratioLog2 num den = Int.log 2 (num / den : ℚ) := by
  have above : (0 : ℚ) < den := by exact_mod_cast Nat.pos_of_ne_zero positive
  have ratio : (0 : ℚ) < num / den := div_pos (by exact_mod_cast Nat.pos_of_ne_zero given) above
  obtain ⟨low, high⟩ := ratio_bounds given positive
  have reached (e : ℤ) : den * Nat.pow 2 e.toNat ≤ num * Nat.pow 2 (-e).toNat ↔ (2 : ℚ) ^ e ≤ num / den := by
    rw [zpow_eq_div, div_le_div_iff₀ (by positivity) above, mul_comm den]
    exact_mod_cast Iff.rfl
  -- One comparison decides between the two exponents that the bounds leave.
  simp only [ratioLog2, reached]
  split_ifs with enough
  · exact (log_eq_of_bounds one_lt_two ratio enough high).symm
  · rw [not_le] at enough
    exact (log_eq_of_bounds one_lt_two ratio low (by simpa using enough)).symm

/-- A ratio is rounded as its value. -/
theorem nearestBits_eq (num : ℕ) {den : ℕ} (positive : 0 < den) : nearestBits num den = nearest (num / den) := by
  have above : (den : ℚ) ≠ 0 := by exact_mod_cast positive.ne'
  by_cases zero : num = 0
  · simp [zero, nearestBits, nearest]
  · have given : (num / den : ℚ) ≠ 0 := div_ne_zero (by exact_mod_cast zero) above
    have scaled (e : ℤ) : roundDiv (num * 2 ^ (-e).toNat) (den * 2 ^ e.toNat) = roundEven (num / den / 2 ^ e) := by
      rw [roundDiv_eq _ (Nat.mul_pos positive (Nat.pow_pos two_pos)), zpow_eq_div]
      push_cast
      rw [div_div_div_eq, mul_comm]
    simp only [nearestBits, nearest, zero, given, if_false, ratioLog2_eq zero positive.ne', unitExponent, Nat.pow_eq,
      scaled]

/-! ## Large and small magnitudes -/

/-- What is too large for any double is rounded to infinity. -/
theorem nearest_of_large {x : ℚ} (large : 10 ^ (310 : ℤ) ≤ x) : nearest x = infinityBits := by
  have positive : 0 < x := lt_of_lt_of_le (by positivity) large
  have natural : 2 ^ 1029 ≤ 10 ^ 310 := by decide +kernel
  have power : ((2 : ℕ) : ℚ) ^ (1029 : ℤ) ≤ 10 ^ (310 : ℤ) := by exact_mod_cast natural
  have log : 1029 ≤ Int.log 2 x := (Int.zpow_le_iff_le_log one_lt_two positive).1 (power.trans large)
  have exponent : 2047 ≤ (unitExponent x - leastExponent).toNat := by
    have least : Int.log 2 x - 52 ≤ unitExponent x := le_max_left _ _
    have unit : leastExponent = -1074 := rfl
    omega
  have reached : infinityBits ≤ (unitExponent x - leastExponent).toNat * 2 ^ fractionBits :=
    Nat.mul_le_mul_right _ exponent
  rw [nearest, if_neg positive.ne']
  exact min_eq_right (reached.trans (Nat.le_add_left _ _))

theorem roundEven_of_lt {x : ℚ} (small : x < 1 / 2) : roundEven x = 0 := by
  have floor : ⌊x⌋₊ = 0 := Nat.floor_eq_zero.2 (by linarith)
  have below : ¬ (1 / 2 < x - (0 : ℕ) ∨ x - (0 : ℕ) = 1 / 2 ∧ 0 % 2 = 1) := by
    push_cast
    rintro (above | ⟨tie, -⟩) <;> linarith
  rw [roundEven, floor, if_neg below]

/-- What is too small for any double is rounded to zero. -/
theorem nearest_of_small {x : ℚ} (positive : 0 < x) (small : x < 10 ^ (-331 : ℤ)) : nearest x = 0 := by
  have natural : 2 ^ 1075 ≤ 10 ^ 331 := by decide +kernel
  have power : (10 : ℚ) ^ (-331 : ℤ) ≤ 2 ^ (-1075 : ℤ) := by
    rw [zpow_neg, zpow_neg]
    exact inv_anti₀ (by positivity) (by exact_mod_cast natural)
  have below : x < 2 ^ (-1075 : ℤ) := lt_of_lt_of_le small power
  have log : Int.log 2 x < -1075 := (Int.lt_zpow_iff_log_lt one_lt_two positive).1 (by exact_mod_cast below)
  have unit : unitExponent x = leastExponent := by
    have bits : (fractionBits : ℤ) = 52 := rfl
    have least : leastExponent = -1074 := rfl
    rw [unitExponent, max_eq_right]
    omega
  have rounded : roundEven (x / 2 ^ leastExponent) = 0 := by
    have half : (2 : ℚ) ^ (-1075 : ℤ) = 1 / 2 * 2 ^ leastExponent := by
      have shifted : (-1075 : ℤ) = -1 + leastExponent := rfl
      rw [shifted, zpow_add₀ two_ne_zero, zpow_neg_one, one_div]
    apply roundEven_of_lt
    rw [div_lt_iff₀ (by positivity), ← half]
    exact below
  simp [nearest, positive.ne', unit, rounded]

/-! ## Doubles -/

theorem roundEven_natCast (n : ℕ) : roundEven n = n := by
  simp [roundEven]

/-- A multiple of a unit that is not too small for it is rounded to itself. -/
theorem nearest_of_multiple {s : ℕ} {e : ℤ} (given : s ≠ 0) (least : leastExponent ≤ e) (short : s < 2 ^ 53)
    (full : 2 ^ fractionBits ≤ s ∨ e = leastExponent) :
    nearest (s * 2 ^ e) = min (s + (e - leastExponent).toNat * 2 ^ fractionBits) infinityBits := by
  have positive : (0 : ℚ) < s * 2 ^ e := mul_pos (by exact_mod_cast Nat.pos_of_ne_zero given) (by positivity)
  have high : Int.log 2 ((s : ℚ) * 2 ^ e) < 53 + e := by
    rw [← Int.lt_zpow_iff_log_lt one_lt_two positive, Nat.cast_ofNat, zpow_add₀ two_ne_zero]
    gcongr
    exact_mod_cast short
  have unit : unitExponent ((s : ℚ) * 2 ^ e) = e := by
    have bits : (fractionBits : ℤ) = 52 := rfl
    -- A significand of full length fixes the logarithm; a shorter one is allowed at the least unit only.
    obtain wide | rfl := full
    · have low : 52 + e ≤ Int.log 2 ((s : ℚ) * 2 ^ e) := by
        rw [← Int.zpow_le_iff_le_log one_lt_two positive, Nat.cast_ofNat, zpow_add₀ two_ne_zero]
        gcongr
        exact_mod_cast wide
      rw [unitExponent]
      omega
    · rw [unitExponent]
      omega
  rw [nearest, if_neg positive.ne', unit, mul_div_cancel_right₀ _ (by positivity), roundEven_natCast]

/-- The magnitude of a finite double. -/
def magnitude (f : Float) : ℚ := significand f * 2 ^ exponent f

theorem parts_of_small {f : Float} (small : magnitudeBits f < 2 ^ 52) :
    significand f = magnitudeBits f ∧ exponent f = leastExponent :=
  ⟨if_pos small, if_pos small⟩

theorem parts_of_large {f : Float} (large : ¬ magnitudeBits f < 2 ^ 52) :
    significand f = magnitudeBits f % 2 ^ 52 + 2 ^ 52 ∧
      exponent f = leastExponent + (magnitudeBits f / 2 ^ 52 : ℕ) - 1 :=
  ⟨if_neg large, if_neg large⟩

/-- The magnitude of a finite double is rounded to its own pattern. -/
theorem nearest_magnitude {f : Float} (given : magnitudeBits f ≠ 0) (finite : magnitudeBits f < infinityBits) :
    nearest (magnitude f) = magnitudeBits f := by
  have limit : magnitudeBits f < 2047 * 2 ^ 52 := finite
  have bits : 2 ^ fractionBits = 2 ^ 52 := rfl
  rw [magnitude]
  by_cases small : magnitudeBits f < 2 ^ 52
  · obtain ⟨significand, exponent⟩ := parts_of_small small
    rw [significand, exponent, nearest_of_multiple given (le_refl _) (by omega) (.inr rfl), sub_self]
    simpa using finite.le
  · obtain ⟨significand, exponent⟩ := parts_of_large small
    have full : 2 ^ fractionBits ≤ magnitudeBits f % 2 ^ 52 + 2 ^ 52 := bits ▸ Nat.le_add_left _ _
    rw [significand, exponent, nearest_of_multiple (by omega) (by omega) (by omega) (.inl full), bits]
    have pattern : magnitudeBits f % 2 ^ 52 + 2 ^ 52 +
        (leastExponent + (magnitudeBits f / 2 ^ 52 : ℕ) - 1 - leastExponent).toNat * 2 ^ 52 = magnitudeBits f := by
      omega
    rw [pattern]
    exact min_eq_left finite.le

end Binary

namespace Decimal

/-! ## Decimals -/

/-- The magnitude that a decimal stands for. -/
def value (d : Decimal) : ℚ := d.digits * 10 ^ d.exponent

theorem value_eq_div (d : Decimal) : d.value = d.numerator / d.denominator := by
  rw [value, Binary.zpow_eq_div, numerator, denominator, Nat.pow_eq, Nat.pow_eq]
  push_cast
  rw [mul_div_assoc]

theorem value_of_zero {d : Decimal} (zero : d.digits = 0) : d.value = 0 := by
  simp [value, zero]

theorem value_pos {d : Decimal} (given : d.digits ≠ 0) : 0 < d.value := by
  have digits : (0 : ℚ) < d.digits := by exact_mod_cast Nat.pos_of_ne_zero given
  rw [value]
  positivity

/-- The place of the point is known from the value. -/
theorem pointPlace_eq {d : Decimal} (given : d.digits ≠ 0) : d.pointPlace = Int.log 10 d.value + 1 := by
  obtain ⟨k, length⟩ : ∃ k, (digitChars d.digits).length = k + 1 :=
    ⟨_, (Nat.succ_pred_eq_of_pos Nat.length_toDigits_pos).symm⟩
  have positive := value_pos given
  have high : d.digits < 10 ^ (k + 1) :=
    (Nat.length_toDigits_le_iff (by decide) (Nat.succ_pos k)).1 length.le
  have low : 10 ^ k ≤ d.digits := by
    cases k with
    | zero => exact Nat.pos_of_ne_zero given
    | succ k =>
      -- Below the power there would be a digit less.
      rw [← not_lt, ← Nat.length_toDigits_le_iff (by decide) (Nat.succ_pos k)]
      change ¬ (digitChars d.digits).length ≤ k + 1
      omega
  have log : Int.log 10 d.value = k + d.exponent := by
    apply Binary.log_eq_of_bounds (by decide) positive
    · rw [value, Nat.cast_ofNat, zpow_add₀ (by norm_num)]
      gcongr
      exact_mod_cast low
    · rw [value, Nat.cast_ofNat, add_right_comm, zpow_add₀ (by norm_num)]
      gcongr
      exact_mod_cast high
  rw [pointPlace, length, log]
  push_cast
  ring

/-- A decimal is rounded as its value, though large and small ones are not computed. -/
theorem nearestBits_eq (d : Decimal) : d.nearestBits = Binary.nearest d.value := by
  unfold nearestBits
  split_ifs with zero large small
  · rw [value_of_zero zero]
    rfl
  · rw [pointPlace_eq zero] at large
    have positive := value_pos zero
    have power : ((10 : ℕ) : ℚ) ^ (310 : ℤ) ≤ d.value := (Int.zpow_le_iff_le_log (by decide) positive).2 (by omega)
    exact (Binary.nearest_of_large (by exact_mod_cast power)).symm
  · rw [pointPlace_eq zero] at small
    have positive := value_pos zero
    have power : d.value < ((10 : ℕ) : ℚ) ^ (-331 : ℤ) := (Int.lt_zpow_iff_log_lt (by decide) positive).2 (by omega)
    exact (Binary.nearest_of_small positive (by exact_mod_cast power)).symm
  · have positive : 0 < d.denominator := Nat.pow_pos (by decide)
    rw [Binary.nearestBits_eq _ positive, value_eq_div]

end Decimal

end ScratchPage
