import ScratchPage.Json.Reader
import ScratchPage.Proofs.Decimal.Grammar
import ScratchPage.Proofs.Lexical.Literal

/-!
# Reading strings and numbers

The reader takes back each character of a string from its written form. The argument does not look at
how the characters are written, as long as all but three of them are kept and each is read back
(`Harmless`); plain text and guarded text are written in such ways. A number is read up to its last
character, whatever follows it in compact text (`readNumber_chars`).
-/

namespace ScratchPage.Json
set_option autoImplicit false

/-! ## Ways to write a character -/

/-- A way to write the characters of compact text that keeps all but three of them, and from which the
reader takes each character of a string back. -/
structure Harmless (g : Char → List Char) : Prop where
  keeps : ∀ c, c ≠ '<' → c ≠ '\u2028' → c ≠ '\u2029' → g c = [c]
  reads : ∀ c rest, c ≠ '"' → c ≠ '\\' → 0x20 ≤ c.toNat → readChar (g c ++ rest) = some (c, rest)

/-- A text in which each character is written in this way. -/
def written (g : Char → List Char) (text : String) : List Char := text.toList.flatMap g

theorem harmless_plain : Harmless fun c => [c] where
  keeps _ _ _ _ := rfl
  reads c rest quote backslash control := by
    have raw : ¬ c.toNat < 0x20 := by omega
    simp only [readChar, List.singleton_append, backslash, quote, raw, if_false, or_self]

/-- Guarded characters are read back, since their escapes are escapes of strings as well. -/
theorem harmless_guardChar : Harmless Text.guardChar where
  keeps c less ls ps := by simp [Text.guardChar, less, ls, ps]
  reads c rest quote backslash control := by
    unfold Text.guardChar
    split_ifs with less ls ps
    case neg => exact harmless_plain.reads c rest quote backslash control
    all_goals
      subst c
      rfl

theorem written_plain (text : String) : written (fun c => [c]) text = text.toList := by
  simp [written]

theorem written_guardChar (text : String) : written Text.guardChar text = (Text.guarded text).toList := by
  simp [written, Text.guarded]

theorem written_append (g : Char → List Char) (a b : String) : written g (a ++ b) = written g a ++ written g b := by
  simp [written]

/-- The character is written as it is in every harmless way. -/
def isKept (c : Char) : Bool := c != '<' && c != '\u2028' && c != '\u2029'

namespace Harmless
variable {g : Char → List Char} (harmless : Harmless g)
include harmless

theorem flatMap_of_isKept {cs : List Char} (kept : cs.all isKept = true) : cs.flatMap g = cs := by
  induction cs with
  | nil => rfl
  | cons c cs ih =>
    simp only [List.all_cons, Bool.and_eq_true, isKept, bne_iff_ne] at kept
    obtain ⟨⟨⟨less, ls⟩, ps⟩, rest⟩ := kept
    rw [List.flatMap_cons, harmless.keeps c less ls ps, ih rest, List.singleton_append]

end Harmless

/-! ## Strings -/

theorem isKept_hexDigit : ∀ n < 16, isKept (hexDigit n) = true := by
  decide

theorem hexValue?_hexDigit : ∀ n < 16, hexValue? (hexDigit n) = some n := by
  decide

/-- The code of a control character is read back. -/
theorem readChar_code {c : Char} (control : c.toNat < 0x20) (rest : List Char) :
    readChar ('\\' :: 'u' :: '0' :: '0' :: hexDigit (c.toNat / 16) :: hexDigit (c.toNat % 16) :: rest) =
      some (c, rest) := by
  have high := hexValue?_hexDigit (c.toNat / 16) (by omega)
  have low := hexValue?_hexDigit (c.toNat % 16) (by omega)
  have zero : hexValue? '0' = some 0 := by decide
  have whole : c.toNat / 16 * 16 + c.toNat % 16 = c.toNat := by omega
  have notHigh : ¬ (0xD800 ≤ c.toNat ∧ c.toNat ≤ 0xDBFF) := by omega
  have notLow : ¬ (0xDC00 ≤ c.toNat ∧ c.toNat ≤ 0xDFFF) := by omega
  simp [readChar, readEscape, readUnicode, readUnit, zero, high, low, whole, notHigh, notLow, Char.ofNat_toNat]

/-- A loop over characters goes on behind a character that is read. -/
theorem readChars_step {cs rest : List Char} {c : Char} (read : readChar cs = some (c, rest)) (fuel : Nat)
    (done : List Char) : readChars (fuel + 1) done cs = readChars fuel (c :: done) rest := by
  rw [readChars, read]
  rintro inside rfl
  simp [readChar] at read

namespace Harmless
variable {g : Char → List Char} (harmless : Harmless g)
include harmless

/-- Each character of a string is read back from its written form, whatever follows. -/
theorem readChar_escapeChar (c : Char) (rest : List Char) :
    readChar ((escapeChar c).flatMap g ++ rest) = some (c, rest) := by
  unfold escapeChar
  split_ifs with quote backslash feed ret tab back form control
  · rw [harmless.flatMap_of_isKept (by decide)]
    subst quote
    rfl
  · rw [harmless.flatMap_of_isKept (by decide)]
    subst backslash
    rfl
  · rw [harmless.flatMap_of_isKept (by decide)]
    subst feed
    rfl
  · rw [harmless.flatMap_of_isKept (by decide)]
    subst ret
    rfl
  · rw [harmless.flatMap_of_isKept (by decide)]
    subst tab
    rfl
  · rw [harmless.flatMap_of_isKept (by decide)]
    obtain rfl : c = '\x08' := Char.toNat_inj.1 back
    rfl
  · rw [harmless.flatMap_of_isKept (by decide)]
    obtain rfl : c = '\x0c' := Char.toNat_inj.1 form
    rfl
  · have high := isKept_hexDigit (c.toNat / 16) (by omega)
    have low := isKept_hexDigit (c.toNat % 16) (by omega)
    have zero : isKept '0' = true ∧ isKept '\\' = true ∧ isKept 'u' = true := by decide
    rw [harmless.flatMap_of_isKept (by simp [zero, high, low])]
    exact readChar_code control rest
  · rw [List.flatMap_singleton]
    exact harmless.reads c rest quote backslash (by omega)

/-- The characters of a string are read back up to its closing quotation mark. -/
theorem readChars_escaped (chars done rest : List Char) {fuel : Nat}
    (enough : (chars.flatMap fun c => (escapeChar c).flatMap g).length < fuel) :
    readChars fuel done (chars.flatMap (fun c => (escapeChar c).flatMap g) ++ '"' :: rest) =
      some (done.reverse ++ chars, rest) := by
  induction chars generalizing done fuel with
  | nil =>
    obtain ⟨fuel, rfl⟩ := Nat.exists_eq_succ_of_ne_zero (Nat.ne_of_gt enough)
    simp [readChars]
  | cons c chars ih =>
    have nonempty : 0 < ((escapeChar c).flatMap g).length := by
      rw [List.length_pos_iff]
      intro empty
      have read := harmless.readChar_escapeChar c []
      rw [empty] at read
      cases read
    rw [List.flatMap_cons, List.length_append] at enough
    obtain ⟨fuel, rfl⟩ := Nat.exists_eq_succ_of_ne_zero (Nat.ne_of_gt (Nat.zero_lt_of_lt enough))
    rw [List.flatMap_cons, List.append_assoc, readChars_step (harmless.readChar_escapeChar c _), ih _ (by omega)]
    simp

/-- A string is read back behind its opening quotation mark. -/
theorem readString_quote (text : String) :
    ∃ inside, written g (quote text) = '"' :: inside ∧
      ∀ rest, readString (inside ++ rest) = some (text, rest) := by
  have mark : g '"' = ['"'] := harmless.keeps '"' (by decide) (by decide) (by decide)
  refine ⟨text.toList.flatMap (fun c => (escapeChar c).flatMap g) ++ ['"'], ?_, fun rest => ?_⟩
  · simp [written, quote, mark, List.flatMap_assoc]
  · rw [readString, List.append_assoc, List.singleton_append, harmless.readChars_escaped]
    · simp
    · simp only [List.length_append, List.length_cons]
      omega

end Harmless

/-! ## Numbers -/

/-- What can follow a value in compact text: the end, or a character that no number goes on with. -/
def EndsValue (rest : List Char) : Prop := ∀ c ∈ rest.head?, c = ',' ∨ c = ']' ∨ c = '\x7d'

theorem EndsValue.nil : EndsValue [] := by simp [EndsValue]

theorem EndsValue.comma (rest : List Char) : EndsValue (',' :: rest) := by simp [EndsValue]

theorem EndsValue.bracket (rest : List Char) : EndsValue (']' :: rest) := by simp [EndsValue]

theorem EndsValue.brace (rest : List Char) : EndsValue ('\x7d' :: rest) := by simp [EndsValue]

/-- What can follow a number: the end, or a character that no number goes on with. -/
def EndsNumber (rest : List Char) : Prop := ∀ c ∈ rest.head?, c.isDigit = false ∧ c ≠ '.' ∧ c ≠ 'e' ∧ c ≠ 'E'

theorem EndsNumber.not_digit {rest : List Char} (ends : EndsNumber rest) : ∀ c ∈ rest.head?, c.isDigit = false :=
  fun c head => (ends c head).1

theorem EndsValue.number {rest : List Char} (ends : EndsValue rest) : EndsNumber rest := by
  intro c head
  obtain rfl | rfl | rfl := ends c head <;> decide

namespace NumberToken

/-- The point with the digits behind it. -/
def fractionChars : Option (List Char) → List Char
  | none => []
  | some digits => '.' :: digits

/-- The exponent with its sign. -/
def exponentChars : Option (Bool × List Char) → List Char
  | none => []
  | some (negative, digits) => 'e' :: (if negative then '-' else '+') :: digits

/-- The characters of a number. -/
def chars (t : NumberToken) : List Char :=
  (if t.negative then ['-'] else []) ++ (t.whole ++ (fractionChars t.fraction ++ exponentChars t.exponent))

/-- There are digits, and nothing but digits. -/
def AreDigits (digits : List Char) : Prop := digits ≠ [] ∧ ∀ c ∈ digits, c.isDigit = true

/-- Each part of the number that is there has digits, and nothing but digits. -/
structure IsWritten (t : NumberToken) : Prop where
  whole : AreDigits t.whole
  fraction : ∀ digits ∈ t.fraction, AreDigits digits
  exponent : ∀ part ∈ t.exponent, AreDigits part.2

end NumberToken

open NumberToken

theorem digits_of_areDigits {digits rest : List Char} (all : AreDigits digits)
    (ends : ∀ c ∈ rest.head?, c.isDigit = false) : Numeral.digits (digits ++ rest) = (digits, rest) := by
  rw [Numeral.digits_append all.2, Numeral.digits_of_head ends, List.append_nil]

/-- The ways to write an exponent. -/
inductive ExponentText : Option (Bool × List Char) → List Char → Prop
  | none : ExponentText none []
  | some {mark : Char} {sign digits : List Char} : mark = 'e' ∨ mark = 'E' → sign ∈ [[], ['+'], ['-']] →
      AreDigits digits → ExponentText (some (decide (sign = ['-']), digits)) (mark :: (sign ++ digits))

/-- The written exponent is a text of the exponent. -/
theorem exponentText_chars {exponent : Option (Bool × List Char)} (digits : ∀ part ∈ exponent, AreDigits part.2) :
    ExponentText exponent (exponentChars exponent) := by
  cases exponent with
  | none => exact .none
  | some part =>
    obtain ⟨negative, ds⟩ := part
    cases negative with
    | true => exact @ExponentText.some 'e' ['-'] ds (.inl rfl) (by decide) (digits _ rfl)
    | false => exact @ExponentText.some 'e' ['+'] ds (.inl rfl) (by decide) (digits _ rfl)

/-- An exponent is read from any text of it, in either case and with or without a sign. -/
theorem readExponent_text {exponent : Option (Bool × List Char)} {power : List Char}
    (text : ExponentText exponent power) {rest : List Char} (ends : EndsNumber rest) :
    readExponent (power ++ rest) = some (exponent, rest) := by
  cases text with
  | none =>
    cases rest with
    | nil => rfl
    | cons c rest =>
      obtain ⟨-, -, lower, upper⟩ := ends c rfl
      simp [readExponent, lower, upper]
  | @some mark sign digits isMark isSign all =>
    have taken := digits_of_areDigits all ends.not_digit
    obtain ⟨d, more, rfl⟩ := List.exists_cons_of_ne_nil all.1
    have leads : ∀ c ∈ (d :: more ++ rest).head?, c ≠ '+' ∧ c ≠ '-' := by
      rintro c ⟨rfl⟩
      exact Numeral.not_sign_of_isDigit (all.2 d List.mem_cons_self)
    rw [List.cons_append, List.append_assoc, readExponent, if_pos isMark, Numeral.sign_append isSign leads]
    simp only [taken]

/-- No number goes on with a point or a digit where its exponent begins. -/
theorem ExponentText.head {exponent : Option (Bool × List Char)} {power : List Char}
    (text : ExponentText exponent power) {rest : List Char} (ends : EndsNumber rest) :
    ∀ c ∈ (power ++ rest).head?, c.isDigit = false ∧ c ≠ '.' := by
  cases text with
  | none => exact fun c head => ⟨(ends c head).1, (ends c head).2.1⟩
  | some isMark =>
    rintro c ⟨rfl⟩
    obtain rfl | rfl := isMark <;> decide

/-- A fraction is read up to the first character that is no digit. -/
theorem readFraction_text {fraction : Option (List Char)} (digits : ∀ ds ∈ fraction, AreDigits ds)
    {rest : List Char} (leads : ∀ c ∈ rest.head?, c.isDigit = false ∧ c ≠ '.') :
    readFraction (fractionChars fraction ++ rest) = some (fraction, rest) := by
  cases fraction with
  | none =>
    rw [fractionChars, List.nil_append]
    unfold readFraction
    split
    · next inside _ => exact absurd rfl (leads '.' (by simp_all)).2
    · rfl
  | some ds =>
    have taken := digits_of_areDigits (digits ds rfl) fun c head => (leads c head).1
    obtain ⟨d, more, rfl⟩ := List.exists_cons_of_ne_nil (digits ds rfl).1
    simp_all [fractionChars, readFraction]

/-- Digits with a leading zero are refused whatever follows them. -/
theorem readWhole_append {whole rest : List Char} (digits : AreDigits whole)
    (ends : ∀ c ∈ rest.head?, c.isDigit = false) :
    readWhole (whole ++ rest) = (readWhole whole).map fun _ => (whole, rest) := by
  have taken := digits_of_areDigits digits ends
  have alone := @digits_of_areDigits whole [] digits (by simp)
  rw [List.append_nil] at alone
  simp only [readWhole, taken, alone]
  rcases whole with - | ⟨d, - | ⟨e, more⟩⟩
  · rfl
  · simp
  · by_cases zero : d = '0'
    · subst zero
      rfl
    · simp [zero]

/-- What comes after the whole part of a number is no digit. -/
theorem fractionChars_head (fraction : Option (List Char)) {rest : List Char}
    (leads : ∀ c ∈ rest.head?, c.isDigit = false ∧ c ≠ '.') :
    ∀ c ∈ (fractionChars fraction ++ rest).head?, c.isDigit = false := by
  cases fraction with
  | none => exact fun c head => (leads c head).1
  | some ds =>
    rintro c ⟨rfl⟩
    rfl

/-- A number behind its sign. -/
def readUnsigned (negative : Bool) (cs : List Char) : Option (Number × List Char) := do
  let (whole, rest) ← readWhole cs
  let (fraction, rest) ← readFraction rest
  let (exponent, rest) ← readExponent rest
  let value ← NumberToken.value? ⟨negative, whole, fraction, exponent⟩
  some (value, rest)

theorem readNumber_minus (cs : List Char) : readNumber ('-' :: cs) = readUnsigned true cs := rfl

theorem readNumber_unsigned {c : Char} (unsigned : c ≠ '-') (cs : List Char) :
    readNumber (c :: cs) = readUnsigned false (c :: cs) := by
  simp [readNumber, readUnsigned, unsigned]

/-- A number is read up to its last character however its exponent is written, and what follows does not change
what is read. -/
theorem readNumber_token {t : NumberToken} (isWritten : t.IsWritten) {power : List Char}
    (text : ExponentText t.exponent power) {rest : List Char} (ends : EndsNumber rest) :
    readNumber ((if t.negative then ['-'] else []) ++ (t.whole ++ (fractionChars t.fraction ++ power)) ++ rest) =
      ((readWhole t.whole).bind fun _ => t.value?).map (·, rest) := by
  have leads := text.head ends
  have first := readWhole_append isWritten.whole (fractionChars_head t.fraction leads)
  have unsigned : readUnsigned t.negative (t.whole ++ (fractionChars t.fraction ++ (power ++ rest))) =
        ((readWhole t.whole).bind fun _ => t.value?).map (·, rest) := by
    simp only [readUnsigned, first, Option.bind_eq_bind]
    cases readWhole t.whole with
    | none => rfl
    | some _ =>
      simp only [Option.map_some, Option.bind_some, readFraction_text isWritten.fraction leads,
        readExponent_text text ends]
      cases t.value? <;> rfl
  rw [← unsigned]
  obtain ⟨d, more, whole⟩ := List.exists_cons_of_ne_nil isWritten.whole.1
  have digit : d.isDigit = true := isWritten.whole.2 d (by simp [whole])
  cases t.negative with
  | true => simp [readNumber_minus]
  | false => simp [whole, readNumber_unsigned (Numeral.not_sign_of_isDigit digit).2]

theorem readNumber_chars {t : NumberToken} (isWritten : t.IsWritten) {rest : List Char} (ends : EndsValue rest) :
    readNumber (t.chars ++ rest) = ((readWhole t.whole).bind fun _ => t.value?).map (·, rest) :=
  readNumber_token isWritten (exponentText_chars isWritten.exponent) ends.number

/-! ## How numbers are written -/

theorem areDigits_digitChars (n : Nat) : AreDigits (Decimal.digitChars n) :=
  ⟨Nat.toDigits_ne_nil, Lexical.digitChars_digit⟩

/-- The notation for doubles has digits in each of its parts. -/
theorem scientific_isWritten (d : Decimal) (negative : Bool) : ∃ t : NumberToken, t.IsWritten ∧
    t.negative = negative ∧ d.scientific = t.whole ++ (fractionChars t.fraction ++ exponentChars t.exponent) := by
  have zero : AreDigits ['0'] := ⟨by simp, by simp⟩
  by_cases nothing : d.digits = 0
  · exact ⟨⟨negative, ['0'], some ['0'], none⟩, ⟨zero, by simpa using zero, by simp⟩, rfl,
      by rw [Decimal.scientific, if_pos nothing]; rfl⟩
  by_cases positional : -5 < d.pointPlace ∧ d.pointPlace ≤ 16
  · obtain ⟨c, whole, fraction, eq, digit, before, after⟩ := Lexical.pointed_digits d.digits d.pointPlace
    have leading : AreDigits (c :: whole) := ⟨by simp, List.forall_mem_cons.2 ⟨digit, before⟩⟩
    have trailing : AreDigits (if fraction.isEmpty then ['0'] else fraction) := by
      split_ifs with empty
      · exact zero
      · exact ⟨by simpa using empty, after⟩
    refine ⟨⟨negative, c :: whole, some (if fraction.isEmpty then ['0'] else fraction), none⟩,
      ⟨leading, by simpa using trailing, by simp⟩, rfl, ?_⟩
    simp [Decimal.scientific, nothing, positional, eq, fractionChars, exponentChars]
  · obtain ⟨c, rest, eq, digit, all⟩ := Lexical.digitChars_cons d.digits
    have leading : AreDigits [c] := ⟨by simp, by simpa using digit⟩
    obtain ⟨part, power, text⟩ : ∃ part : Bool × List Char, AreDigits part.2 ∧
        d.scientific = [c] ++ ((if rest = [] then [] else '.' :: rest) ++ exponentChars (some part)) := by
      refine ⟨(decide (d.pointPlace - 1 < 0), Decimal.digitChars (d.pointPlace - 1).natAbs),
        areDigits_digitChars _, ?_⟩
      simp [Decimal.scientific, nothing, positional, eq, exponentChars, List.length_eq_zero_iff]
    by_cases short : rest = []
    · refine ⟨⟨negative, [c], none, some part⟩, ⟨leading, by simp, by simpa using power⟩, rfl, ?_⟩
      rw [text, if_pos short, fractionChars]
    · refine ⟨⟨negative, [c], some rest, some part⟩,
        ⟨leading, by simpa using ⟨short, all⟩, by simpa using power⟩, rfl, ?_⟩
      rw [text, if_neg short, fractionChars]

/-- The text of a number is that of a token. -/
theorem text_isWritten (n : Number) : ∃ t : NumberToken, t.IsWritten ∧ n.text.toList = t.chars := by
  cases n with
  | int i =>
    refine ⟨⟨decide (i < 0), Decimal.digitChars i.natAbs, none, none⟩, ⟨areDigits_digitChars _, by simp, by simp⟩, ?_⟩
    by_cases negative : i < 0 <;> simp [Number.text, intText, NumberToken.chars, fractionChars, exponentChars, negative]
  | double f =>
    obtain ⟨t, isWritten, negative, text⟩ :=
      scientific_isWritten (Decimal.shortest .even f) (Binary.isNegative f)
    refine ⟨t, isWritten, ?_⟩
    rw [Number.text, Decimal.signed, NumberToken.chars, text, negative]
    cases Binary.isNegative f <;> simp

theorem isKept_of_isDigit {c : Char} (digit : c.isDigit = true) : isKept c = true := by
  have other : ∀ d : Char, d.isDigit = false → (c != d) = true := by
    intro d isOther
    rw [bne_iff_ne]
    rintro rfl
    rw [digit] at isOther
    cases isOther
  simp [isKept, other '<' rfl, other '\u2028' rfl, other '\u2029' rfl]

/-- A written number has none of the characters that are guarded. -/
theorem NumberToken.IsWritten.isKept {t : NumberToken} (isWritten : t.IsWritten) : t.chars.all isKept = true := by
  have digits {ds : List Char} (all : AreDigits ds) : ds.all Json.isKept = true :=
    List.all_eq_true.2 fun c mem => isKept_of_isDigit (all.2 c mem)
  obtain ⟨negative, whole, fraction, exponent⟩ := t
  obtain ⟨isWhole, isFraction, isExponent⟩ := isWritten
  have kept : Json.isKept '-' = true ∧ Json.isKept '.' = true ∧ Json.isKept 'e' = true ∧ Json.isKept '+' = true := by
    decide
  have front : (if negative then ['-'] else []).all Json.isKept = true := by cases negative <;> simp [kept]
  have middle : (fractionChars fraction).all Json.isKept = true := by
    cases fraction with
    | none => rfl
    | some ds => simp [fractionChars, kept, digits (isFraction ds rfl)]
  have back : (exponentChars exponent).all Json.isKept = true := by
    cases exponent with
    | none => rfl
    | some part =>
      obtain ⟨negative, ds⟩ := part
      cases negative <;> simp [exponentChars, kept, digits (isExponent _ rfl)]
  simp only [NumberToken.chars, List.all_append, front, digits isWhole, middle, back, Bool.and_self]

/-- Numbers are written alike in all harmless ways. -/
theorem Harmless.written_number {g : Char → List Char} (harmless : Harmless g) (n : Number) :
    written g n.text = n.text.toList := by
  obtain ⟨t, isWritten, text⟩ := text_isWritten n
  rw [written, text, harmless.flatMap_of_isKept isWritten.isKept]

theorem readNumber_text (n : Number) {rest : List Char} (ends : EndsValue rest) :
    readNumber (n.text.toList ++ rest) = ((readNumber n.text.toList).map (·.1)).map (·, rest) := by
  obtain ⟨t, isWritten, text⟩ := text_isWritten n
  have alone := readNumber_chars isWritten .nil
  rw [List.append_nil] at alone
  rw [text, readNumber_chars isWritten ends, alone, Option.map_map, Option.map_map]
  rfl

/-- A number begins with a minus sign or a digit. -/
theorem text_head (n : Number) : ∃ c more, n.text.toList = c :: more ∧ (c = '-' ∨ c.isDigit = true) := by
  obtain ⟨t, isWritten, text⟩ := text_isWritten n
  obtain ⟨d, more, whole⟩ := List.exists_cons_of_ne_nil isWritten.whole.1
  have digit : d.isDigit = true := isWritten.whole.2 d (by simp [whole])
  rw [text, NumberToken.chars, whole]
  cases t.negative with
  | true => exact ⟨'-', _, rfl, .inl rfl⟩
  | false => exact ⟨d, _, rfl, .inr digit⟩

end ScratchPage.Json
