import ScratchPage.Proofs.Decimal.Rounding
import ScratchPage.Proofs.Decimal.Whole
import ScratchPage.Proofs.Lexical.Literal

/-!
# Written numbers are read back

A finite double is written as its shortest decimal, in plain notation. The search for this decimal tries a
candidate by rounding it and ends at the exact expansion, so that what it gives is rounded to the double
(`Decimal.nearestBits_shortest`). The notation moves the point and pads with zeros, which keeps the value
(`Decimal.value_pointed`). Since rounding depends on the value alone, the text is read as the double it was
written for, with every bit of it (`numberLiteral_reads_back`).
-/

namespace ScratchPage
set_option autoImplicit false

namespace Decimal

/-! ## The shortest decimal -/

theorem nearestBits_congr {a b : Decimal} (same : a.value = b.value) : a.nearestBits = b.nearestBits := by
  rw [nearestBits_eq, nearestBits_eq, same]

/-- Zeros at the end move to the exponent, and the value stays. -/
theorem value_strip (fuel : ℕ) (d : Decimal) : (strip fuel d).value = d.value := by
  induction fuel generalizing d with
  | zero => rfl
  | succ fuel ih =>
    unfold strip
    split_ifs with divisible
    · have whole : d.digits / 10 * 10 = d.digits := Nat.div_mul_cancel (Nat.dvd_of_mod_eq_zero divisible.2)
      have digits : ((d.digits / 10 : ℕ) * 10 : ℚ) = d.digits := by exact_mod_cast whole
      rw [ih, value, value, zpow_add_one₀ (by norm_num), mul_comm (10 ^ d.exponent), ← mul_assoc, digits]
    · rfl

/-- A neighbour is taken from a grid if it reads back. -/
theorem nearestBits_of_onGrid {tie : Tie} {num den bits count : ℕ} {d : Decimal}
    (hit : onGrid tie num den bits count = some d) : d.nearestBits = bits := by
  simp only [onGrid, Bool.and_eq_true, beq_iff_eq] at hit
  split_ifs at hit with low high
  · rw [← Option.some.inj hit]
    exact low.1
  · rw [← Option.some.inj hit]
    exact high

/-- The exact decimal of a double has its magnitude. -/
theorem value_exact (f : Float) : (exact f).value = Binary.magnitude f := by
  simp only [exact, value, Binary.magnitude, Nat.pow_eq]
  obtain ⟨n, positive | negative⟩ := (Binary.exponent f).eq_nat_or_neg
  · simp [positive]
  · have ten : (10 : ℚ) ^ n = 5 ^ n * 2 ^ n := by rw [← mul_pow]; norm_num
    simp only [negative, Int.toNat_neg_natCast, neg_neg, Int.toNat_natCast, pow_zero, mul_one, zpow_neg, zpow_natCast,
      inf_of_le_left (neg_nonpos.2 (Int.natCast_nonneg n)), ten]
    push_cast
    rw [mul_assoc, mul_inv, mul_inv_cancel_left₀ (by positivity)]

/-- The shortest decimal of a finite double reads back as its magnitude. -/
theorem nearestBits_shortest (tie : Tie) {f : Float} (finite : Binary.magnitudeBits f < Binary.infinityBits) :
    (shortest tie f).nearestBits = Binary.magnitudeBits f := by
  simp only [shortest]
  split_ifs with zero
  · rw [zero]
    rfl
  · rw [normalize, nearestBits_congr (value_strip _ _)]
    generalize grids : List.findSome? _ _ = hit
    cases hit with
    | none => rw [Option.getD_none, nearestBits_eq, value_exact, Binary.nearest_magnitude zero finite]
    | some d =>
      obtain ⟨count, -, onGrid⟩ := List.exists_of_findSome?_eq_some grids
      exact nearestBits_of_onGrid onGrid

/-! ## Plain notation -/

theorem valueOf_eq (ds : List Char) : valueOf ds = Nat.ofDigitChars 10 ds 0 := by
  simp only [valueOf, Nat.ofDigitChars, mul_comm]
  rfl

/-- Where the point is put does not change the value. -/
theorem value_pointed (d : Decimal) (negative : Bool) {whole fraction : List Char}
    (parts : pointed (digitChars d.digits) d.pointPlace = (whole, fraction)) :
    (Numeral.mk negative whole fraction 0).decimal.value = d.value := by
  have digits : Nat.ofDigitChars 10 (digitChars d.digits) 0 = d.digits := Nat.ofDigitChars_ten_toDigits
  have place : d.pointPlace = (digitChars d.digits).length + d.exponent := rfl
  simp only [Numeral.decimal, value, valueOf_eq]
  unfold pointed at parts
  split_ifs at parts with below
  -- The point stands in front of all digits, with zeros between them.
  · obtain ⟨rfl, rfl⟩ := Prod.mk.inj parts
    have length : (0 - (List.replicate (-d.pointPlace).toNat '0' ++ digitChars d.digits).length : ℤ) = d.exponent := by
      rw [List.length_append, List.length_replicate]
      omega
    have number : Nat.ofDigitChars 10 (['0'] ++ (List.replicate (-d.pointPlace).toNat '0' ++ digitChars d.digits)) 0 =
        d.digits := by
      rw [Nat.ofDigitChars_append, Nat.ofDigitChars_append, Nat.ofDigitChars_replicate_zero]
      exact digits
    rw [length, number]
  · obtain ⟨rfl, rfl⟩ := Prod.mk.inj parts
    by_cases inside : d.pointPlace.toNat ≤ (digitChars d.digits).length
    -- The point stands among the digits or at their end.
    · have length : (0 - ((digitChars d.digits).drop d.pointPlace.toNat).length : ℤ) = d.exponent := by
        rw [List.length_drop]
        omega
      rw [Nat.sub_eq_zero_of_le inside, List.replicate_zero, List.append_nil, List.take_append_drop, length, digits]
    -- The digits are followed by zeros, and there is no fraction.
    · have outside := Nat.le_of_not_le inside
      have zeros : d.exponent = (d.pointPlace.toNat - (digitChars d.digits).length : ℕ) := by omega
      rw [List.take_of_length_le outside, List.drop_of_length_le outside, List.append_nil, Nat.ofDigitChars_append,
        Nat.ofDigitChars_replicate_zero, digits, zeros]
      push_cast
      simp [mul_comm]

end Decimal

namespace Numeral

namespace Grammar

open RegularExpression

/-- A number as it stands in code: digits with an optional fraction, or a word. -/
def literal : RegularExpression Char :=
  maybe (char '-') * (someDigits * maybe (char '.' * someDigits)) + word ['N', 'a', 'N'] +
    maybe (char '-') * word infinityWord

theorem mem_minus {text : List Char} : text ∈ (maybe (char '-')).matches' ↔ text ∈ [[], ['-']] := by
  rw [mem_maybe, List.mem_cons, List.mem_singleton]
  exact Iff.rfl

/-- The grammar of fractions matches a dot with digits, or nothing. -/
theorem mem_fraction {text : List Char} : text ∈ (maybe (char '.' * someDigits)).matches' ↔
    ∃ f : Option (List Char), (∀ ds ∈ f, ds ∈ someDigits.matches') ∧ Spelling.pointText f = text := by
  rw [mem_maybe, matches'_mul, Language.mem_mul]
  constructor
  · rintro (rfl | ⟨_, ⟨rfl⟩, ds, digits, rfl⟩)
    · exact ⟨none, by simp, rfl⟩
    · exact ⟨some ds, by simpa using digits, rfl⟩
  · rintro ⟨_ | ds, digits, rfl⟩
    · exact .inl rfl
    · exact .inr ⟨['.'], rfl, ds, digits ds rfl, rfl⟩

/-- The grammar of literals matches signed positional numbers and the three words. -/
theorem mem_literal {text : List Char} : text ∈ literal.matches' ↔
    (∃ sign ∈ [[], ['-']], ∃ whole ∈ someDigits.matches', ∃ f : Option (List Char),
      (∀ ds ∈ f, ds ∈ someDigits.matches') ∧ sign ++ (whole ++ Spelling.pointText f) = text) ∨
    text = ['N', 'a', 'N'] ∨ ∃ sign ∈ [[], ['-']], sign ++ infinityWord = text := by
  rw [literal, matches'_add, Language.mem_add, matches'_add, Language.mem_add, mem_word, or_assoc]
  simp only [matches'_mul, Language.mem_mul, mem_minus, mem_word, exists_eq_left]
  rw [or_congr_left]
  constructor
  · rintro ⟨sign, isSign, body, ⟨whole, digits, tail, isTail, rfl⟩, rfl⟩
    obtain ⟨f, fraction, rfl⟩ := mem_fraction.1 isTail
    exact ⟨sign, isSign, whole, digits, f, fraction, rfl⟩
  · rintro ⟨sign, isSign, whole, digits, f, fraction, rfl⟩
    exact ⟨sign, isSign, _, ⟨whole, digits, _, mem_fraction.2 ⟨f, fraction, rfl⟩, rfl⟩, rfl⟩

/-- No number in code has the mark of an exponent. -/
theorem not_isMark_of_literal {text : List Char} (isLiteral : text ∈ literal.matches') :
    ∀ c ∈ text, isMark c = false := by
  have sign_marks : ∀ sign ∈ [[], ['-']], ∀ c ∈ sign, isMark c = false := by simp [isMark]
  rw [mem_literal] at isLiteral
  intro c mem
  obtain ⟨sign, isSign, whole, digits, f, fraction, rfl⟩ | rfl | ⟨sign, isSign, rfl⟩ := isLiteral
  · obtain inSign | inside := List.mem_append.1 mem
    · exact sign_marks sign isSign c inSign
    · obtain isDigit | rfl := mem_mantissa_chars (mem_someDigits.1 digits).2
        (fun ds given => (mem_someDigits.1 (fraction ds given)).2) inside
      · rw [Bool.eq_false_iff]
        intro mark
        rw [not_digit_of_isMark (by simpa [isMark] using mark)] at isDigit
        cases isDigit
      · rfl
  · fin_cases mem <;> rfl
  · obtain inSign | inside := List.mem_append.1 mem
    · exact sign_marks sign isSign c inSign
    · fin_cases inside <;> rfl

end Grammar

/-! ## Reading what is written -/

/-- The sign before a magnitude. -/
def minus (negative : Bool) : List Char := if negative then ['-'] else []

theorem minus_mem (negative : Bool) : minus negative ∈ [[], ['-']] := by
  cases negative <;> simp [minus]

/-- Plain notation is digits with an optional fraction, and it keeps the value. -/
theorem plain_parts (d : Decimal) (negative : Bool) :
    ∃ whole ∈ Grammar.someDigits.matches', ∃ f : Option (List Char),
      (∀ ds ∈ f, ds ∈ Grammar.someDigits.matches') ∧ whole ++ Spelling.pointText f = d.plain ∧
        (Numeral.mk negative whole (f.getD []) 0).decimal.value = d.value := by
  by_cases zero : d.digits = 0
  · have plain : d.plain = ['0'] := if_pos zero
    refine ⟨['0'], Grammar.mem_someDigits.2 ⟨by simp, List.forall_mem_singleton.2 rfl⟩, none, by simp, plain.symm, ?_⟩
    rw [Decimal.value_of_zero zero]
    exact Decimal.value_of_zero rfl
  · obtain ⟨c, whole, fraction, parts, first, before, after⟩ := Lexical.pointed_digits d.digits d.pointPlace
    have value := Decimal.value_pointed d negative parts
    have digits : c :: whole ∈ Grammar.someDigits.matches' :=
      Grammar.mem_someDigits.2 ⟨by simp, List.forall_mem_cons.2 ⟨first, before⟩⟩
    have plain : d.plain = if fraction.isEmpty then c :: whole else c :: whole ++ '.' :: fraction := by
      simp only [Decimal.plain, zero, if_false, parts]
    by_cases empty : fraction = []
    · subst empty
      exact ⟨c :: whole, digits, none, by simp, by simp [plain, Spelling.pointText], value⟩
    · refine ⟨c :: whole, digits, some fraction, ?_, by simp [plain, empty, Spelling.pointText], value⟩
      simpa using Grammar.mem_someDigits.2 ⟨empty, after⟩

theorem minus_isSign (negative : Bool) : minus negative ∈ [[], ['+'], ['-']] := by
  cases negative <;> simp [minus]

theorem decide_minus (negative : Bool) : decide (minus negative = ['-']) = negative := by
  cases negative <;> rfl

/-- The text is a number in code and stands for a double. -/
structure Writes (text : List Char) (x : Float) : Prop where
  isLiteral : text ∈ Grammar.literal.matches'
  isNumber : text ∈ Grammar.number.matches'
  parsed : parse? text = some x

/-- Plain digits with a sign write the double that the decimal is rounded to. -/
theorem writes_plain (negative : Bool) (d : Decimal) : Writes (minus negative ++ d.plain) (d.toFloat negative) := by
  obtain ⟨whole, digits, f, fraction, plain, value⟩ := plain_parts d negative
  obtain ⟨given, all⟩ := Grammar.mem_someDigits.1 digits
  let s : Spelling := ⟨minus negative, whole, f, none, minus_isSign negative, all,
    fun ds mem => (Grammar.mem_someDigits.1 (fraction ds mem)).2, .inl given⟩
  have text : s.text = minus negative ++ d.plain := by
    simp [s, Spelling.text, Spelling.powerText, ← plain]
  have numeral : s.numeral = ⟨negative, whole, f.getD [], 0⟩ := by
    simp [s, Spelling.numeral, decide_minus]
  refine ⟨?_, Grammar.mem_number.2 (.inl ⟨s, text⟩), ?_⟩
  · exact Grammar.mem_literal.2 (.inl ⟨_, minus_mem negative, whole, digits, f, fraction, by rw [plain]⟩)
  · rw [← text, parse?_spelling, numeral]
    simp only [toFloat, Decimal.toFloat, Decimal.nearestBits_congr value]

theorem writes_infinity (negative : Bool) :
    Writes (minus negative ++ infinityWord) (Binary.ofMagnitude negative Binary.infinityBits) where
  isLiteral := Grammar.mem_literal.2 (.inr (.inr ⟨_, minus_mem negative, rfl⟩))
  isNumber := Grammar.mem_number.2 (.inr ⟨_, minus_isSign negative, rfl⟩)
  parsed := by rw [parse?_infinite (minus_isSign negative), decide_minus]

/-- The literal of a number stands for its sign and its magnitude. -/
theorem writes_numberLiteral {f : Float} (given : f.isNaN = false) (number : Binary.IsNumber f.toBits.toBitVec) :
    Writes (numberLiteral f).toList (Binary.ofMagnitude (Binary.isNegative f) (Binary.magnitudeBits f)) := by
  have infinite : f.isInf = true ↔ Binary.magnitudeBits f = Binary.infinityBits := number.isInf_unpack
  by_cases isInf : f.isInf = true
  · have text : (numberLiteral f).toList = minus (Binary.isNegative f) ++ infinityWord := by
      simp only [numberLiteral, given, isInf, Bool.false_eq_true, if_false, if_true]
      cases Binary.isNegative f <;> rfl
    rw [text, infinite.1 isInf]
    exact writes_infinity _
  · have text : (numberLiteral f).toList = minus (Binary.isNegative f) ++ (Decimal.shortest .up f).plain := by
      simp only [numberLiteral, given, isInf, Bool.false_eq_true, if_false, Decimal.signed, String.toList_ofList]
      cases Binary.isNegative f <;> rfl
    have finite : Binary.magnitudeBits f < Binary.infinityBits :=
      lt_of_le_of_ne number fun top => isInf (infinite.2 top)
    have written := writes_plain (Binary.isNegative f) (Decimal.shortest .up f)
    rwa [← text, Decimal.toFloat, Decimal.nearestBits_shortest .up finite] at written

theorem not_isBlank_of_number {text : List Char} (isNumber : text ∈ Grammar.number.matches') :
    ∀ c ∈ text, Text.isBlank c = false := by
  obtain ⟨s, rfl⟩ | ⟨s, isSigned, rfl⟩ := Grammar.mem_number.1 isNumber
  · exact s.not_isBlank
  · intro c mem
    obtain inSign | inside := List.mem_append.1 mem
    · exact not_isBlank_of_sign isSigned c inSign
    · fin_cases inside <;> rfl

/-- A number without blanks around it is read to its end. -/
theorem Writes.reads {text : String} {x : Float} (written : Writes text.toList x) :
    leadingNumber text = x ∧ leadingPart? (Text.trimLeft text.toList) = some (text.toList, []) := by
  have trimmed : Text.trimLeft text.toList = text.toList := by
    rw [Text.trimLeft, List.dropWhile_eq_self_iff]
    intro given
    simpa using not_isBlank_of_number written.isNumber _ (List.getElem_mem given)
  have part : leadingPart? (text.toList ++ []) = some (text.toList, []) :=
    leadingPart?_of_number written.isNumber (by simp)
  rw [List.append_nil] at part
  obtain ⟨y, parsed, pointless, -⟩ := parse?_of_number written.isNumber
  obtain rfl : y = x := Option.some.inj (parsed.symm.trans written.parsed)
  have value := leadingNumber?_eq_parse text
  rw [leadingNumber?_eq, trimmed, part, Option.map_some, pointless, Option.getD_some, Option.some.injEq] at value
  exact ⟨value, by rw [trimmed, part]⟩

/-- Every double is read back from its literal, bit by bit, and the whole literal is read. What is not a number is
written as a word that is read as no number. No literal has an exponent. -/
theorem numberLiteral_reads_back (bits : UInt64) :
    let value := Float.ofBits bits
    let text := numberLiteral value
    text.toList ∈ Grammar.literal.matches' ∧ (∀ c ∈ text.toList, isMark c = false) ∧
      parse? text.toList = some (leadingNumber text) ∧
      if value.isNaN then (leadingNumber text).isNaN = true
      else (leadingNumber text).toBits = bits ∧
        leadingPart? (Text.trimLeft text.toList) = some (text.toList, []) := by
  intro value text
  by_cases isNaN : value.isNaN = true
  · have word : text = "NaN" := if_pos isNaN
    have isLiteral : text.toList ∈ Grammar.literal.matches' := Grammar.mem_literal.2 (.inr (.inl (by rw [word]; rfl)))
    have read : leadingNumber text = notANumber := by
      rw [word]
      rfl
    refine ⟨isLiteral, Grammar.not_isMark_of_literal isLiteral, ?_, ?_⟩
    · rw [read, word]
      rfl
    · rw [if_pos isNaN, read]
      decide +kernel
  · have given : value.isNaN = false := Bool.eq_false_iff.2 isNaN
    -- Only the pattern of a number is kept by its double.
    have number := Binary.isNumber_of_isNaN given
    have pattern : value.toBits = bits := number.toBits_ofBits
    have written : Writes text.toList value := by
      have parts := writes_numberLiteral given (pattern.symm ▸ number)
      rwa [Binary.ofMagnitude_parts, pattern] at parts
    obtain ⟨read, whole⟩ := written.reads
    rw [if_neg isNaN, read]
    exact ⟨written.isLiteral, Grammar.not_isMark_of_literal written.isLiteral, written.parsed, pattern, whole⟩

end Numeral

end ScratchPage
