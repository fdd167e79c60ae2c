import Mathlib.Data.List.Forall2
import ScratchPage.Proofs.Input.Encoding
import ScratchPage.Proofs.Json.Reading

/-!
# Texts of arrays

Which texts stand for an array of strings, numbers and booleans is said here as a grammar: blanks may stand
around every item, each character of a string may be written as it is or by its escapes, and numbers take
their usual forms. A number that is out of range and half of a surrogate pair stand for nothing. The reader
accepts these texts, with the items that they stand for, and no others (`read?_array_iff`).
-/

namespace ScratchPage.Json
set_option autoImplicit false

/-! ## The grammar -/

/-- Blanks between the parts of a text. -/
def Blanks (cs : List Char) : Prop := ∀ c ∈ cs, c ∈ [' ', '\t', '\n', '\r']

/-- The letters that stand for a character behind a backslash. -/
def shortEscapes : List (Char × Char) :=
  [('"', '"'), ('\\', '\\'), ('/', '/'), ('b', '\x08'), ('f', '\x0c'), ('n', '\n'), ('r', '\r'), ('t', '\t')]

/-- Four hexadecimal digits. -/
inductive UnitText : Nat → List Char → Prop
  | mk {a b c d : Char} {p q r s : Nat} : hexValue? a = some p → hexValue? b = some q → hexValue? c = some r →
      hexValue? d = some s → UnitText (((p * 16 + q) * 16 + r) * 16 + s) [a, b, c, d]

/-- The ways to write a character in a string. Beyond sixteen bits its number is split into two halves. -/
inductive CharText : Char → List Char → Prop
  | plain {c : Char} : c ≠ '"' → c ≠ '\\' → 0x20 ≤ c.toNat → CharText c [c]
  | short {letter c : Char} : (letter, c) ∈ shortEscapes → CharText c ['\\', letter]
  | unit {c : Char} {digits : List Char} : UnitText c.toNat digits → CharText c ('\\' :: 'u' :: digits)
  | pair {c : Char} {high low : List Char} : 0x10000 ≤ c.toNat →
      UnitText (0xD800 + (c.toNat - 0x10000) / 1024) high → UnitText (0xDC00 + (c.toNat - 0x10000) % 1024) low →
      CharText c ('\\' :: 'u' :: (high ++ '\\' :: 'u' :: low))

/-- The ways to write characters of a string. -/
inductive CharsText : List Char → List Char → Prop
  | nil : CharsText [] []
  | cons {c : Char} {cs front rest : List Char} : CharText c front → CharsText cs rest →
      CharsText (c :: cs) (front ++ rest)

/-- The ways to write a number: no zero stands in front of other digits. -/
inductive NumberText : Number → List Char → Prop
  | mk {t : NumberToken} {n : Number} {power : List Char} : t.IsWritten →
      (t.whole = ['0'] ∨ t.whole.head? ≠ some '0') → ExponentText t.exponent power → t.value? = some n →
      NumberText n ((if t.negative then ['-'] else []) ++ (t.whole ++ (NumberToken.fractionChars t.fraction ++ power)))

/-- The ways to write a string, a number or a boolean. -/
inductive PlainText : Json → List Char → Prop
  | string {s : String} {inside : List Char} : CharsText s.toList inside →
      PlainText (.string s) ('"' :: (inside ++ ['"']))
  | number {n : Number} {text : List Char} : NumberText n text → PlainText (.number n) text
  | isTrue : PlainText (.bool true) ['t', 'r', 'u', 'e']
  | isFalse : PlainText (.bool false) ['f', 'a', 'l', 's', 'e']

/-- The ways to write items with commas between them, each with blanks around it. -/
inductive ItemsText : List Json → List Char → Prop
  | one {item : Json} {left text right : List Char} : Blanks left → PlainText item text → Blanks right →
      ItemsText [item] (left ++ (text ++ right))
  | more {item : Json} {items : List Json} {left text right rest : List Char} : Blanks left → PlainText item text →
      Blanks right → ItemsText items rest → ItemsText (item :: items) (left ++ (text ++ (right ++ ',' :: rest)))

/-- The ways to write an array of strings, numbers and booleans. -/
inductive ArrayText : List Json → List Char → Prop
  | empty {left inside right : List Char} : Blanks left → Blanks inside → Blanks right →
      ArrayText [] (left ++ '[' :: (inside ++ ']' :: right))
  | filled {items : List Json} {left inside right : List Char} : Blanks left → ItemsText items inside →
      Blanks right → ArrayText items (left ++ '[' :: (inside ++ ']' :: right))

/-! ## Blanks -/

theorem isSpace_iff {c : Char} : isSpace c = true ↔ c ∈ [' ', '\t', '\n', '\r'] := by
  simp [isSpace, or_assoc]

/-- The first character, if there is one, is not blank. -/
def IsDark (cs : List Char) : Prop := ∀ c ∈ cs.head?, isSpace c = false

theorem skipSpace_blanks {blanks rest : List Char} (all : Blanks blanks) (dark : IsDark rest) :
    skipSpace (blanks ++ rest) = rest := by
  rw [skipSpace, List.dropWhile_append_of_pos fun c mem => isSpace_iff.2 (all c mem)]
  cases rest with
  | nil => rfl
  | cons c rest => simp [dark c rfl]

theorem exists_blanks (cs : List Char) : ∃ blanks, Blanks blanks ∧ cs = blanks ++ skipSpace cs :=
  ⟨cs.takeWhile isSpace, fun _ mem => isSpace_iff.1 (List.mem_takeWhile_imp mem),
    List.takeWhile_append_dropWhile.symm⟩

/-! ## Characters -/

theorem readUnit_text {unit : Nat} {digits : List Char} (text : UnitText unit digits) (rest : List Char) :
    readUnit (digits ++ rest) = some (unit, rest) := by
  cases text with
  | mk a b c d => simp [readUnit, a, b, c, d]

/-- The reader of units takes the four digits of a unit. -/
theorem unitText_of_readUnit {cs rest : List Char} {unit : Nat} (read : readUnit cs = some (unit, rest)) :
    ∃ digits, UnitText unit digits ∧ cs = digits ++ rest := by
  unfold readUnit at read
  split at read
  next a b c d more =>
    simp only [Option.bind_eq_bind, Option.bind_eq_some_iff, Option.some.injEq, Prod.mk.injEq] at read
    obtain ⟨p, first, q, second, r, third, s, fourth, rfl, rfl⟩ := read
    exact ⟨[a, b, c, d], .mk first second third fourth, rfl⟩
  next => cases read

/-- A hexadecimal digit is less than sixteen. -/
theorem hexValue?_lt {c : Char} {n : Nat} (value : hexValue? c = some n) : n < 16 := by
  unfold hexValue? at value
  split_ifs at value with digit lower upper <;> cases value
  · have high : c.toNat ≤ 57 := digit.2
    omega
  · have high : c.toNat ≤ 102 := lower.2
    omega
  · have high : c.toNat ≤ 70 := upper.2
    omega

/-- A unit has sixteen bits. -/
theorem UnitText.lt {unit : Nat} {digits : List Char} (text : UnitText unit digits) : unit < 0x10000 := by
  cases text with
  | mk a b c d =>
    have a := hexValue?_lt a
    have b := hexValue?_lt b
    have c := hexValue?_lt c
    have d := hexValue?_lt d
    omega

theorem toNat_scalar (c : Char) : c.toNat < 0xD800 ∨ 0xDFFF < c.toNat ∧ c.toNat < 0x110000 := c.valid

theorem toNat_ofNat_scalar {n : Nat} (scalar : n < 0xD800 ∨ 0xDFFF < n ∧ n < 0x110000) : (Char.ofNat n).toNat = n := by
  rw [Char.ofNat, dif_pos (show n.isValidChar from scalar)]
  rfl

theorem readUnicode_unit {c : Char} {digits : List Char} (text : UnitText c.toNat digits) (rest : List Char) :
    readUnicode (digits ++ rest) = some (c, rest) := by
  have scalar := toNat_scalar c
  have notHigh : ¬ (0xD800 ≤ c.toNat ∧ c.toNat ≤ 0xDBFF) := by omega
  have notLow : ¬ (0xDC00 ≤ c.toNat ∧ c.toNat ≤ 0xDFFF) := by omega
  simp [readUnicode, readUnit_text text, notHigh, notLow, Char.ofNat_toNat]

/-- A pair of surrogates is read as one character. -/
theorem readUnicode_pair {high low : Nat} {first second : List Char} (isHigh : 0xD800 ≤ high ∧ high ≤ 0xDBFF)
    (isLow : 0xDC00 ≤ low ∧ low ≤ 0xDFFF) (text : UnitText high first) (text' : UnitText low second)
    (rest : List Char) :
    readUnicode (first ++ '\\' :: 'u' :: (second ++ rest)) =
      some (Char.ofNat (0x10000 + (high - 0xD800) * 1024 + (low - 0xDC00)), rest) := by
  have marked : after? ['\\', 'u'] ('\\' :: 'u' :: (second ++ rest)) = some (second ++ rest) :=
    after?_append ['\\', 'u'] _
  rw [readUnicode, readUnit_text text]
  simp only [Option.bind_eq_bind, Option.bind_some, if_pos isHigh, marked, readUnit_text text', if_pos isLow]

theorem eq_of_after? {word cs rest : List Char} (found : after? word cs = some rest) : cs = word ++ rest := by
  unfold after? at found
  split_ifs at found with starts
  cases found
  obtain ⟨behind, rfl⟩ := List.isPrefixOf_iff_prefix.1 starts
  rw [List.drop_left]

/-- What stands behind the mark of a code is one unit or a pair of them. -/
theorem charText_of_readUnicode {cs rest : List Char} {c : Char} (read : readUnicode cs = some (c, rest)) :
    ∃ digits, CharText c ('\\' :: 'u' :: digits) ∧ cs = digits ++ rest := by
  unfold readUnicode at read
  simp only [Option.bind_eq_bind, Option.bind_eq_some_iff, Prod.exists] at read
  obtain ⟨unit, behind, first, read⟩ := read
  obtain ⟨digits, text, rfl⟩ := unitText_of_readUnit first
  have small := text.lt
  split_ifs at read with isHigh isLow
  · simp only [Option.bind_eq_some_iff, Prod.exists] at read
    obtain ⟨marked, isMarked, low, last, second, read⟩ := read
    split_ifs at read with isLow
    simp only [Option.some.injEq, Prod.mk.injEq] at read
    obtain ⟨isChar, rfl⟩ := read
    obtain ⟨more, text', rfl⟩ := unitText_of_readUnit second
    obtain rfl := eq_of_after? isMarked
    have same : c.toNat = 0x10000 + (unit - 0xD800) * 1024 + (low - 0xDC00) := by
      rw [← isChar]
      exact toNat_ofNat_scalar (by omega)
    have upper : 0xD800 + (c.toNat - 0x10000) / 1024 = unit := by omega
    have lower : 0xDC00 + (c.toNat - 0x10000) % 1024 = low := by omega
    exact ⟨digits ++ '\\' :: 'u' :: more, .pair (by omega) (upper.symm ▸ text) (lower.symm ▸ text'), by simp⟩
  · cases read
    have same := @toNat_ofNat_scalar unit (by omega)
    exact ⟨digits, .unit (same.symm ▸ text), rfl⟩

/-- A character is read from each of its texts. -/
theorem readChar_text {c : Char} {front : List Char} (text : CharText c front) (rest : List Char) :
    readChar (front ++ rest) = some (c, rest) := by
  cases text with
  | plain quote backslash control => exact harmless_plain.reads c rest quote backslash control
  | @short letter _ listed =>
    simp only [shortEscapes, List.mem_cons, Prod.mk.injEq, List.not_mem_nil, or_false] at listed
    rcases listed with ⟨rfl, rfl⟩ | ⟨rfl, rfl⟩ | ⟨rfl, rfl⟩ | ⟨rfl, rfl⟩ | ⟨rfl, rfl⟩ | ⟨rfl, rfl⟩ | ⟨rfl, rfl⟩ |
      ⟨rfl, rfl⟩ <;> rfl
  | unit digits => exact readUnicode_unit digits rest
  | pair wide high low =>
    have scalar := toNat_scalar c
    have read := readUnicode_pair (by omega) (by omega) high low rest
    have whole : 0x10000 + (0xD800 + (c.toNat - 0x10000) / 1024 - 0xD800) * 1024 +
        (0xDC00 + (c.toNat - 0x10000) % 1024 - 0xDC00) = c.toNat := by omega
    rw [whole, Char.ofNat_toNat] at read
    simpa [readChar, readEscape] using read

/-- What is read after a backslash is a text of the character. -/
theorem charText_of_readEscape {cs rest : List Char} {c : Char} (read : readEscape cs = some (c, rest)) :
    ∃ behind, CharText c ('\\' :: behind) ∧ cs = behind ++ rest := by
  unfold readEscape at read
  split at read
  case h_9 =>
    obtain ⟨digits, text, rfl⟩ := charText_of_readUnicode read
    exact ⟨'u' :: digits, text, rfl⟩
  case h_10 => cases read
  all_goals
    cases read
    exact ⟨[_], .short (by decide), rfl⟩

/-- What is read as a character is a text of it. -/
theorem charText_of_readChar {cs rest : List Char} {c : Char} (read : readChar cs = some (c, rest)) :
    ∃ front, CharText c front ∧ cs = front ++ rest := by
  unfold readChar at read
  split at read
  · cases read
  next d more =>
    split_ifs at read with backslash other
    · obtain ⟨behind, text, rfl⟩ := charText_of_readEscape read
      exact ⟨_, text, by rw [backslash, List.cons_append]⟩
    · cases read
      rw [not_or, Nat.not_lt] at other
      exact ⟨[c], .plain other.1 backslash other.2, rfl⟩

/-! ## Strings -/

theorem CharText.length_pos {c : Char} {front : List Char} (text : CharText c front) : 0 < front.length := by
  cases text <;> simp

/-- The run over the characters of a string, with enough fuel for its text. -/
theorem readChars_text {cs inside : List Char} (text : CharsText cs inside) (done rest : List Char) {fuel : Nat}
    (enough : inside.length < fuel) :
    readChars fuel done (inside ++ '"' :: rest) = some (done.reverse ++ cs, rest) := by
  induction text generalizing done fuel with
  | nil =>
    obtain ⟨fuel, rfl⟩ := Nat.exists_eq_succ_of_ne_zero (Nat.ne_of_gt enough)
    simp [readChars]
  | cons first _ ih =>
    have some := first.length_pos
    rw [List.length_append] at enough
    obtain ⟨fuel, rfl⟩ := Nat.exists_eq_succ_of_ne_zero (Nat.ne_of_gt (Nat.zero_lt_of_lt enough))
    rw [List.append_assoc, readChars_step (readChar_text first _), ih _ (by omega)]
    simp

/-- What the run takes up to the closing quote is a text of the characters. -/
theorem charsText_of_readChars {fuel : Nat} {done cs all rest : List Char}
    (read : readChars fuel done cs = some (all, rest)) :
    ∃ chars inside, CharsText chars inside ∧ all = done.reverse ++ chars ∧ cs = inside ++ '"' :: rest := by
  induction fuel generalizing done cs with
  | zero => cases read
  | succ fuel ih =>
    unfold readChars at read
    split at read
    · cases read
      exact ⟨[], [], .nil, (List.append_nil _).symm, rfl⟩
    next =>
      split at read
      next c behind first =>
        obtain ⟨chars, inside, others, rfl, rfl⟩ := ih read
        obtain ⟨front, text, rfl⟩ := charText_of_readChar first
        exact ⟨c :: chars, front ++ inside, .cons text others, by simp, by simp⟩
      next => cases read

theorem readString_text {s : String} {inside : List Char} (text : CharsText s.toList inside) (rest : List Char) :
    readString (inside ++ '"' :: rest) = some (s, rest) := by
  have enough : inside.length < (inside ++ '"' :: rest).length + 1 := by
    rw [List.length_append, List.length_cons]
    omega
  rw [readString, readChars_text text [] rest enough]
  simp

theorem charsText_of_readString {cs rest : List Char} {s : String} (read : readString cs = some (s, rest)) :
    ∃ inside, CharsText s.toList inside ∧ cs = inside ++ '"' :: rest := by
  obtain ⟨⟨all, behind⟩, chars, same⟩ := Option.map_eq_some_iff.1 read
  cases same
  obtain ⟨own, inside, text, rfl, rfl⟩ := charsText_of_readChars chars
  exact ⟨inside, by simpa using text, rfl⟩

/-! ## Numbers -/

open NumberToken

/-- Digits without a zero before them are a whole part. -/
theorem readWhole_of_areDigits {whole : List Char} (digits : AreDigits whole)
    (leading : whole = ['0'] ∨ whole.head? ≠ some '0') : readWhole whole = some (whole, []) := by
  have taken := @digits_of_areDigits whole [] digits (by simp)
  rw [List.append_nil] at taken
  rw [readWhole, taken]
  obtain ⟨d, more, rfl⟩ := List.exists_cons_of_ne_nil digits.1
  obtain same | other := leading
  · cases same
    rfl
  · split
    next empty => cases empty
    next zero => cases zero; simp at other
    next same => cases same; rfl

theorem readNumber_numberText {n : Number} {text : List Char} (isText : NumberText n text) {rest : List Char}
    (ends : EndsNumber rest) : readNumber (text ++ rest) = some (n, rest) := by
  cases isText with
  | mk isWritten leading power value =>
    rw [readNumber_token isWritten power ends, readWhole_of_areDigits isWritten.whole leading, Option.bind_some, value]
    rfl

/-- What is read as a whole part has digits only, and a zero leads only if it is alone. -/
theorem areDigits_of_readWhole {cs whole rest : List Char} (read : readWhole cs = some (whole, rest)) :
    AreDigits whole ∧ (whole = ['0'] ∨ whole.head? ≠ some '0') ∧ cs = whole ++ rest := by
  have split := Numeral.digits_split cs
  unfold readWhole at read
  split at read
  next => cases read
  next => cases read
  next whole' rest' notEmpty notZero taken =>
    cases read
    rw [taken] at split
    refine ⟨⟨notEmpty, split.2⟩, ?_, split.1⟩
    rcases whole with - | ⟨d, - | ⟨e, more⟩⟩
    · exact .inr (by simp)
    · by_cases zero : d = '0'
      · exact .inl (zero ▸ rfl)
      · exact .inr (by simpa using zero)
    · refine .inr fun zero => ?_
      cases zero
      exact notZero e more rfl

/-- What is read as a fraction is a dot with digits, or nothing. -/
theorem areDigits_of_readFraction {cs rest : List Char} {fraction : Option (List Char)}
    (read : readFraction cs = some (fraction, rest)) :
    (∀ digits ∈ fraction, AreDigits digits) ∧ cs = fractionChars fraction ++ rest := by
  unfold readFraction at read
  split at read
  next behind =>
    have split := Numeral.digits_split behind
    split at read
    next => cases read
    next digits rest' notEmpty taken =>
      cases read
      rw [taken] at split
      refine ⟨?_, by rw [fractionChars, List.cons_append, ← split.1]⟩
      rintro _ ⟨rfl⟩
      exact ⟨notEmpty, split.2⟩
  next =>
    cases read
    exact ⟨by simp, rfl⟩

/-- What is read as an exponent is a text of it. -/
theorem exponentText_of_readExponent {cs rest : List Char} {exponent : Option (Bool × List Char)}
    (read : readExponent cs = some (exponent, rest)) :
    ∃ power, ExponentText exponent power ∧ cs = power ++ rest := by
  unfold readExponent at read
  split at read
  next mark behind =>
    split_ifs at read with isMark
    · obtain ⟨sign, isSign, signed, negative⟩ := Numeral.sign_split behind
      have split := Numeral.digits_split (Numeral.sign behind).2
      dsimp only at read
      split at read
      next => cases read
      next digits rest' notEmpty taken =>
        cases read
        rw [taken] at split
        have all : AreDigits digits := ⟨notEmpty, split.2⟩
        refine ⟨mark :: (sign ++ digits), negative ▸ .some isMark isSign all, ?_⟩
        rw [List.cons_append, List.append_assoc, ← split.1, ← signed]
    · cases read
      exact ⟨[], .none, rfl⟩
  next =>
    cases read
    exact ⟨[], .none, rfl⟩

theorem ExponentText.areDigits {exponent : Option (Bool × List Char)} {power : List Char}
    (text : ExponentText exponent power) : ∀ part ∈ exponent, AreDigits part.2 := by
  cases text with
  | none => simp
  | some _ _ digits => simpa using digits

/-- What is read behind the sign is a text of the number. -/
theorem numberText_of_readUnsigned {negative : Bool} {cs rest : List Char} {n : Number}
    (read : readUnsigned negative cs = some (n, rest)) :
    ∃ text, NumberText n ((if negative then ['-'] else []) ++ text) ∧ cs = text ++ rest := by
  simp only [readUnsigned, Option.bind_eq_bind, Option.bind_eq_some_iff, Prod.exists, Option.some.injEq,
    Prod.mk.injEq] at read
  obtain ⟨whole, afterWhole, isWhole, fraction, afterFraction, isFraction, exponent, afterExponent, isExponent, value,
    isValue, rfl, rfl⟩ := read
  obtain ⟨digits, leading, rfl⟩ := areDigits_of_readWhole isWhole
  obtain ⟨behind, rfl⟩ := areDigits_of_readFraction isFraction
  obtain ⟨power, text, rfl⟩ := exponentText_of_readExponent isExponent
  exact ⟨whole ++ (fractionChars fraction ++ power),
    @NumberText.mk ⟨negative, whole, fraction, exponent⟩ _ _ ⟨digits, behind, text.areDigits⟩ leading text isValue,
    by simp⟩

/-- What is read as a number is a text of it. -/
theorem numberText_of_readNumber {cs rest : List Char} {n : Number} (read : readNumber cs = some (n, rest)) :
    ∃ text, NumberText n text ∧ cs = text ++ rest := by
  cases cs with
  | nil => cases read
  | cons c cs =>
    by_cases minus : c = '-'
    · subst minus
      obtain ⟨text, isText, rfl⟩ := numberText_of_readUnsigned ((readNumber_minus cs).symm.trans read)
      exact ⟨_, isText, rfl⟩
    · obtain ⟨text, isText, split⟩ := numberText_of_readUnsigned ((readNumber_unsigned minus cs).symm.trans read)
      exact ⟨_, isText, split⟩

/-! ## Values -/

/-- A value begins with a character that is neither blank nor a bracket. -/
structure IsLead (c : Char) : Prop where
  dark : isSpace c = false
  notOpening : c ≠ '['
  notClosing : c ≠ ']'
  notBrace : c ≠ '\x7b'

/-- Numbers start with a minus or a digit. -/
theorem NumberText.head {n : Number} {text : List Char} (isText : NumberText n text) :
    ∃ c more, text = c :: more ∧ (c = '-' ∨ c.isDigit = true) := by
  cases isText with
  | @mk t _ power isWritten =>
    obtain ⟨d, more, whole⟩ := List.exists_cons_of_ne_nil isWritten.whole.1
    have digit : d.isDigit = true := isWritten.whole.2 d (by simp [whole])
    cases t.negative with
    | true => exact ⟨'-', _, rfl, .inl rfl⟩
    | false => exact ⟨d, _, by rw [whole]; rfl, .inr digit⟩

theorem isLead_of_begins {c : Char} (begins : c = '-' ∨ c.isDigit = true) : IsLead c := by
  have other := ne_of_begins begins
  refine ⟨?_, other '[' (by decide), other ']' (by decide), other '\x7b' (by decide)⟩
  simp [isSpace, other ' ' (by decide), other '\t' (by decide), other '\n' (by decide), other '\r' (by decide)]

theorem PlainText.head {value : Json} {text : List Char} (isText : PlainText value text) :
    ∃ c more, text = c :: more ∧ IsLead c := by
  cases isText with
  | string => exact ⟨'"', _, rfl, by decide, by decide, by decide, by decide⟩
  | number isNumber =>
    obtain ⟨c, more, rfl, begins⟩ := isNumber.head
    exact ⟨c, more, rfl, isLead_of_begins begins⟩
  | isTrue => exact ⟨'t', _, rfl, by decide, by decide, by decide, by decide⟩
  | isFalse => exact ⟨'f', _, rfl, by decide, by decide, by decide, by decide⟩

/-- A plain value is read from each of its texts. -/
theorem readScalar_plainText {value : Json} {text : List Char} (isText : PlainText value text) {rest : List Char}
    (ends : EndsNumber rest) : readScalar (text ++ rest) = some (value, rest) := by
  cases isText with
  | string inside =>
    rw [List.cons_append, List.append_assoc, List.singleton_append, readScalar, readString_text inside]
    rfl
  | number isNumber =>
    have read := readNumber_numberText isNumber ends
    obtain ⟨c, more, rfl, begins⟩ := isNumber.head
    rw [List.cons_append, readScalar_number begins, ← List.cons_append, read]
    rfl
  | isTrue => rfl
  | isFalse => rfl

/-- What is read as a scalar is a text of it if it is plain; a null is read but is not plain. -/
theorem plainText_of_readScalar {cs rest : List Char} {value : Json} (read : readScalar cs = some (value, rest))
    (plain : value.IsPlain) : ∃ text, PlainText value text ∧ cs = text ++ rest := by
  unfold readScalar at read
  split at read
  next behind =>
    obtain ⟨⟨s, last⟩, isString, same⟩ := Option.map_eq_some_iff.1 read
    cases same
    obtain ⟨inside, text, rfl⟩ := charsText_of_readString isString
    exact ⟨_, .string text, by simp⟩
  next =>
    obtain ⟨last, -, same⟩ := Option.map_eq_some_iff.1 read
    cases same
    cases plain
  next =>
    obtain ⟨last, isWord, same⟩ := Option.map_eq_some_iff.1 read
    cases same
    exact ⟨_, .isTrue, eq_of_after? isWord⟩
  next =>
    obtain ⟨last, isWord, same⟩ := Option.map_eq_some_iff.1 read
    cases same
    exact ⟨_, .isFalse, eq_of_after? isWord⟩
  next =>
    obtain ⟨⟨n, last⟩, isNumber, same⟩ := Option.map_eq_some_iff.1 read
    cases same
    obtain ⟨text, isText, rfl⟩ := numberText_of_readNumber isNumber
    exact ⟨text, .number isText, rfl⟩

/-- Blanks in front of a value are skipped. -/
theorem readValue_blanks {blanks : List Char} (all : Blanks blanks) (depth : Nat) (cs : List Char) :
    readValue depth (blanks ++ cs) = readValue depth cs := by
  have skipped : skipSpace (blanks ++ cs) = skipSpace cs :=
    List.dropWhile_append_of_pos fun c mem => isSpace_iff.2 (all c mem)
  cases depth <;> rw [readValue, readValue, skipped]

theorem readValue_plainText {value : Json} {left text : List Char} (blanks : Blanks left)
    (isText : PlainText value text) (depth : Nat) {rest : List Char} (ends : EndsNumber rest) :
    readValue depth (left ++ (text ++ rest)) = some (value, rest) := by
  have scalar := readScalar_plainText isText ends
  obtain ⟨c, more, rfl, lead⟩ := isText.head
  rw [readValue_blanks blanks, List.cons_append, readValue_scalar lead.dark lead.notOpening lead.notBrace]
  exact scalar

/-- A plain value stands behind blanks, whatever the depth. -/
theorem plainText_of_readValue {depth : Nat} {cs rest : List Char} {value : Json}
    (read : readValue depth cs = some (value, rest)) (plain : value.IsPlain) :
    ∃ left text, Blanks left ∧ PlainText value text ∧ cs = left ++ (text ++ rest) := by
  obtain ⟨left, blanks, split⟩ := exists_blanks cs
  have scalar : readScalar (skipSpace cs) = some (value, rest) := by
    cases depth with
    | zero => exact read
    | succ depth =>
      unfold readValue at read
      split at read
      -- An array or an object is not plain.
      case h_3 => exact read
      all_goals
        split at read
        · cases read
          cases plain
        · obtain ⟨_, -, same⟩ := Option.map_eq_some_iff.1 read
          cases same
          cases plain
  obtain ⟨text, isText, skipped⟩ := plainText_of_readScalar scalar plain
  exact ⟨left, text, blanks, isText, split.trans (congrArg (left ++ ·) skipped)⟩

/-! ## Arrays -/

/-- A number ends before a blank, a comma or a bracket. -/
theorem endsNumber_of_blanks {right : List Char} (blanks : Blanks right) {c : Char}
    (ends : c = ',' ∨ c = ']') (rest : List Char) : EndsNumber (right ++ c :: rest) := by
  intro d head
  cases right with
  | nil =>
    cases head
    obtain rfl | rfl := ends <;> decide
  | cons e right =>
    cases head
    have listed := blanks d List.mem_cons_self
    simp only [List.mem_cons, List.not_mem_nil, or_false] at listed
    obtain rfl | rfl | rfl | rfl := listed <;> decide

/-- The run over items: as many are read as there are, with blanks around them. -/
theorem readItems_itemsText {items : List Json} {inside : List Char} (text : ItemsText items inside) (depth : Nat)
    (done : List Json) (rest : List Char) {fuel : Nat} (enough : items.length ≤ fuel) :
    readItems (readValue depth) fuel done (inside ++ ']' :: rest) = some (done.reverse ++ items, rest) := by
  induction text generalizing done fuel with
  | @one item left text right blanks isText blanks' =>
    obtain ⟨fuel, rfl⟩ := Nat.exists_eq_succ_of_ne_zero (Nat.ne_of_gt enough)
    have read := readValue_plainText blanks isText depth (endsNumber_of_blanks blanks' (.inr rfl) rest)
    have skipped : skipSpace (right ++ ']' :: rest) = ']' :: rest := skipSpace_blanks blanks' (by simp [IsDark, isSpace])
    rw [List.append_assoc, List.append_assoc, readItems, read]
    simp [skipped]
  | @more item items left text right behind blanks isText blanks' _ ih =>
    obtain ⟨fuel, rfl⟩ := Nat.exists_eq_succ_of_ne_zero (Nat.ne_of_gt (Nat.zero_lt_of_lt enough))
    have read := readValue_plainText blanks isText depth
      (endsNumber_of_blanks blanks' (.inl rfl) (behind ++ ']' :: rest))
    have skipped : skipSpace (right ++ ',' :: (behind ++ ']' :: rest)) = ',' :: (behind ++ ']' :: rest) :=
      skipSpace_blanks blanks' (by simp [IsDark, isSpace])
    have others := ih (item :: done) (Nat.le_of_succ_le_succ enough)
    rw [List.append_assoc, List.append_assoc, List.append_assoc, List.cons_append, readItems, read]
    simp [skipped, others]

/-- What the run takes up to the closing bracket is a text of the items if all of them are plain. -/
theorem itemsText_of_readItems {depth fuel : Nat} {done all : List Json} {cs rest : List Char}
    (read : readItems (readValue depth) fuel done cs = some (all, rest)) :
    ∃ items, all = done.reverse ++ items ∧
      ((∀ item ∈ items, item.IsPlain) → ∃ inside, ItemsText items inside ∧ cs = inside ++ ']' :: rest) := by
  induction fuel generalizing done cs with
  | zero => cases read
  | succ fuel ih =>
    rw [readItems, Option.bind_eq_bind, Option.bind_eq_some_iff] at read
    obtain ⟨⟨item, behind⟩, first, read⟩ := read
    obtain ⟨right, blanks, split⟩ := exists_blanks behind
    dsimp only at read
    split at read
    next more skipped =>
      obtain ⟨items, rfl, others⟩ := ih read
      refine ⟨item :: items, by simp, fun plain => ?_⟩
      rw [List.forall_mem_cons] at plain
      obtain ⟨left, text, blanks', isText, rfl⟩ := plainText_of_readValue first plain.1
      obtain ⟨inside, itemsText, rfl⟩ := others plain.2
      exact ⟨_, .more blanks' isText blanks itemsText, by rw [split, skipped]; simp⟩
    next more skipped =>
      cases read
      refine ⟨[item], by simp, fun plain => ?_⟩
      obtain ⟨left, text, blanks', isText, rfl⟩ := plainText_of_readValue first (plain item List.mem_cons_self)
      exact ⟨_, .one blanks' isText blanks, by rw [split, skipped]; simp⟩
    next => cases read

/-- The items of an array without the blanks in front of the first one. -/
theorem ItemsText.skip {items : List Json} {inside : List Char} (text : ItemsText items inside) (rest : List Char) :
    ∃ c more, skipSpace (inside ++ rest) = c :: (more ++ rest) ∧ IsLead c ∧ ItemsText items (c :: more) := by
  have none : Blanks [] := fun _ mem => absurd mem List.not_mem_nil
  cases text with
  | @one item left text right blanks isText blanks' =>
    obtain ⟨c, more, rfl, lead⟩ := isText.head
    refine ⟨c, more ++ right, ?_, lead, .one none isText blanks'⟩
    rw [List.append_assoc]
    exact skipSpace_blanks blanks (by rintro _ ⟨rfl⟩; exact lead.dark)
  | @more item items left text right behind blanks isText blanks' others =>
    obtain ⟨c, more, rfl, lead⟩ := isText.head
    refine ⟨c, more ++ (right ++ ',' :: behind), ?_, lead, .more none isText blanks' others⟩
    rw [List.append_assoc]
    exact skipSpace_blanks blanks (by rintro _ ⟨rfl⟩; exact lead.dark)

/-- Blanks may stand before items. -/
theorem ItemsText.prepend {items : List Json} {inside blanks : List Char} (text : ItemsText items inside)
    (all : Blanks blanks) : ItemsText items (blanks ++ inside) := by
  have joined : ∀ {left : List Char}, Blanks left → Blanks (blanks ++ left) :=
    fun more => List.forall_mem_append.2 ⟨all, more⟩
  cases text with
  | one left isText right =>
    rw [← List.append_assoc]
    exact .one (joined left) isText right
  | more left isText right others =>
    rw [← List.append_assoc]
    exact .more (joined left) isText right others

/-- A text of items is at least as long as they are many, so it is fuel enough. -/
theorem ItemsText.length_le {items : List Json} {inside : List Char} (text : ItemsText items inside) :
    items.length ≤ inside.length := by
  induction text with
  | one _ isText =>
    obtain ⟨c, more, rfl, -⟩ := isText.head
    simp only [List.length_append, List.length_cons, List.length_nil]
    omega
  | more =>
    simp only [List.length_append, List.length_cons]
    omega

/-- An array of plain values is read from each of its texts, up to blanks behind it. -/
theorem readValue_arrayText {items : List Json} {text : List Char} (isText : ArrayText items text) (depth : Nat) :
    ∃ right, Blanks right ∧ readValue (depth + 1) text = some (.array items, right) := by
  cases isText with
  | @empty left inside right blanks isBlank blanks' =>
    have skipped : skipSpace (inside ++ ']' :: right) = ']' :: right :=
      skipSpace_blanks isBlank (by simp [IsDark, isSpace])
    refine ⟨right, blanks', ?_⟩
    rw [readValue_blanks blanks, readValue, skipSpace_cons (by decide)]
    simp only [skipped]
  | @filled _ left inside right blanks itemsText blanks' =>
    obtain ⟨c, more, skipped, lead, trimmed⟩ := itemsText.skip (']' :: right)
    have room := trimmed.length_le
    have enough : items.length ≤ (c :: (more ++ ']' :: right)).length := by
      simp only [List.length_cons, List.length_append] at room ⊢
      omega
    have read := readItems_itemsText trimmed depth [] right enough
    refine ⟨right, blanks', ?_⟩
    rw [readValue_blanks blanks, readValue, skipSpace_cons (by decide)]
    simp only [skipped]
    split
    next closing => exact absurd (List.cons.inj closing).1 lead.notClosing
    next => exact congrArg (Option.map _) read

/-- What is read as an array of plain values is a text of it. -/
theorem arrayText_of_readValue {depth : Nat} {cs right : List Char} {items : List Json}
    (read : readValue (depth + 1) cs = some (.array items, right)) (plain : ∀ item ∈ items, item.IsPlain)
    (blanks : Blanks right) : ArrayText items cs := by
  obtain ⟨left, blanks', split⟩ := exists_blanks cs
  unfold readValue at read
  split at read
  next behind opening =>
    obtain ⟨inner, isBlank, split'⟩ := exists_blanks behind
    rw [opening] at split
    split at read
    next last closing =>
      cases read
      rw [split, split', closing]
      exact .empty blanks' isBlank blanks
    next =>
      obtain ⟨⟨all, last⟩, looped, same⟩ := Option.map_eq_some_iff.1 read
      cases same
      obtain ⟨own, same, text⟩ := itemsText_of_readItems looped
      obtain rfl : items = own := same
      obtain ⟨inside, itemsText, closing⟩ := text plain
      rw [split, split', closing, ← List.append_assoc]
      exact .filled blanks' (itemsText.prepend isBlank) blanks
  next =>
    split at read
    · cases read
    · obtain ⟨_, -, same⟩ := Option.map_eq_some_iff.1 read
      cases same
  next =>
    unfold readScalar at read
    split at read <;>
    · obtain ⟨_, -, same⟩ := Option.map_eq_some_iff.1 read
      cases same

theorem blanks_iff_skipSpace {cs : List Char} : Blanks cs ↔ (skipSpace cs).isEmpty = true := by
  simp only [Blanks, ← isSpace_iff, skipSpace, List.isEmpty_iff, List.dropWhile_eq_nil_iff]

theorem PlainText.isPlain {value : Json} {text : List Char} (isText : PlainText value text) : value.IsPlain := by
  cases isText <;> constructor

theorem ItemsText.isPlain {items : List Json} {inside : List Char} (text : ItemsText items inside) :
    ∀ item ∈ items, item.IsPlain := by
  induction text with
  | one _ isText => exact List.forall_mem_singleton.2 isText.isPlain
  | more _ isText _ _ ih => exact List.forall_mem_cons.2 ⟨isText.isPlain, ih⟩

theorem ArrayText.isPlain {items : List Json} {text : List Char} (isText : ArrayText items text) :
    ∀ item ∈ items, item.IsPlain := by
  cases isText with
  | empty => simp
  | filled _ itemsText => exact itemsText.isPlain

/-- The reader accepts the texts of arrays of strings, numbers and booleans, and no others. -/
theorem read?_array_iff {source : String} {items : List Json} :
    (read? source = some (.array items) ∧ ∀ item ∈ items, item.IsPlain) ↔ ArrayText items source.toList := by
  have deep : maxDepth = 126 + 1 := rfl
  constructor
  · rintro ⟨read, plain⟩
    simp only [read?, Option.bind_eq_bind, Option.bind_eq_some_iff, Prod.exists] at read
    obtain ⟨value, rest, found, kept⟩ := read
    split_ifs at kept with ends
    cases kept
    exact arrayText_of_readValue found plain (blanks_iff_skipSpace.2 ends)
  · intro text
    obtain ⟨right, blanks, read⟩ := readValue_arrayText text 126
    refine ⟨?_, text.isPlain⟩
    rw [read?, deep, read]
    exact if_pos (blanks_iff_skipSpace.1 blanks)

end ScratchPage.Json
