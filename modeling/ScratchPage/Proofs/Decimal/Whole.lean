import ScratchPage.Compile.Value
import ScratchPage.Proofs.Compile.Outcome
import ScratchPage.Proofs.Decimal.Leading

/-!
# Texts that are numbers

A text is a number if, without its outer blanks, it is a numeral or the word for an infinity behind an
optional sign (`Grammar.number`). That is asked in two ways: by scanning the characters (`isNumeric`) and
by parsing the text and looking at what follows its signs (`parsesAsNumber`). Both accept the texts of the
grammar and no others. The number at the start of such a text is read from all of it but the blanks
around it, so nothing of the text is lost where it stands for a number.
-/

namespace ScratchPage.Compile
set_option autoImplicit false

/-- A literal in a numeric slot is compiled to a number exactly where it stands for one. -/
theorem literal_number_iff {owner : Block} {slot : String} {kind : LiteralKind} {raw : String} {x : Float} :
    (literal owner slot kind raw .numeric : Outcome Operand).result = .ok (.number x) ↔
      isNumber kind raw = true ∧ Numeral.leadingNumber raw = x := by
  cases number : isNumber kind raw with
  | true => simp [literal, number]
  | false =>
    simp only [literal, number, Bool.false_eq_true, if_false, false_and, iff_false]
    intro given
    obtain ⟨_, _, last⟩ := Outcome.bind_eq_ok.1 given
    cases last

end ScratchPage.Compile

namespace ScratchPage.Numeral
set_option autoImplicit false

namespace Grammar

open RegularExpression

/-- One word. -/
def word (chars : List Char) : RegularExpression Char := (chars.map char).foldr (· * ·) 1

/-- A numeral, or the word for an infinity behind an optional sign. -/
def number : RegularExpression Char := numeral + signed * word infinityWord

/-- A word matches itself only. -/
theorem mem_word {chars text : List Char} : text ∈ (word chars).matches' ↔ text = chars := by
  induction chars generalizing text with
  | nil => exact Iff.rfl
  | cons c chars ih =>
    have first : (word (c :: chars)).matches' = (char c).matches' * (word chars).matches' := rfl
    rw [first, Language.mem_mul]
    constructor
    · rintro ⟨_, ⟨rfl⟩, rest, isRest, rfl⟩
      rw [ih.1 isRest]
      rfl
    · rintro rfl
      exact ⟨[c], rfl, chars, ih.2 rfl, rfl⟩

theorem mem_number {text : List Char} : text ∈ number.matches' ↔
    (∃ s : Spelling, s.text = text) ∨ ∃ s ∈ [[], ['+'], ['-']], s ++ infinityWord = text := by
  rw [number, matches'_add, Language.mem_add, mem_numeral, matches'_mul, Language.mem_mul]
  simp only [mem_signed, mem_word, exists_eq_left]

end Grammar

/-! ## Asking by parsing -/

/-- The text without its outer blanks parses, and what follows its signs begins with no letter; the word
for an infinity is taken as it is, behind one sign at most. -/
def parsesAsNumber (text : String) : Bool :=
  let cs := Text.trim text.toList
  let unsigned := cs.dropWhile isSign
  if cs.isEmpty then false
  else if unsigned = infinityWord then decide (cs.length - unsigned.length ≤ 1)
  else (parse? cs).isSome && !unsigned.head?.any Char.isAlpha

/-- Either all items pass a test, or there is a first one that does not. -/
theorem takeWhile_cut {α : Type} (p : α → Bool) (cs : List α) :
    cs = cs.takeWhile p ∨ ∃ c rest, p c = false ∧ cs = cs.takeWhile p ++ c :: rest := by
  have split : cs = cs.takeWhile p ++ cs.dropWhile p := List.takeWhile_append_dropWhile.symm
  have ends := List.head?_dropWhile_not p cs
  cases behind : cs.dropWhile p with
  | nil =>
    rw [behind, List.append_nil] at split
    exact .inl split
  | cons c rest =>
    rw [behind] at split ends
    exact .inr ⟨c, rest, ends, split⟩

/-- What parses as a mantissa is digits with an optional point. -/
theorem parseMantissa?_eq_some {cs whole fraction : List Char} (parsed : parseMantissa? cs = some (whole, fraction)) :
    ∃ f : Option (List Char), (∀ c ∈ whole, c.isDigit = true) ∧ (∀ ds ∈ f, ∀ c ∈ ds, c.isDigit = true) ∧
      (whole ≠ [] ∨ ∃ ds ∈ f, ds ≠ []) ∧ cs = whole ++ Spelling.pointText f := by
  simp only [parseMantissa?, Option.ite_none_right_eq_some, Option.some.injEq, Prod.mk.injEq, Bool.and_eq_true,
    List.all_append, List.all_eq_true, Bool.not_eq_true', List.isEmpty_eq_false_iff] at parsed
  obtain ⟨⟨⟨inWhole, inFraction⟩, given⟩, isWhole, isFraction⟩ := parsed
  have cut := takeWhile_cut (· ≠ '.') cs
  rw [isWhole] at inWhole inFraction given isFraction cut
  rw [isFraction] at inFraction given
  obtain rfl | ⟨point, ds, isPoint, rfl⟩ := cut
  · have empty : fraction = [] := by
      rw [← isFraction]
      exact List.drop_of_length_le (Nat.le_succ _)
    rw [empty, List.append_nil] at given
    exact ⟨none, inWhole, by simp, .inl given, by simp [Spelling.pointText]⟩
  · obtain rfl : point = '.' := by simpa using isPoint
    obtain rfl : ds = fraction := by
      rw [← isFraction, List.drop_length_add_append]
      rfl
    refine ⟨some ds, inWhole, by simpa using inFraction, ?_, rfl⟩
    simpa [or_iff_not_imp_left] using given

/-- What parses as an exponent is a mark with a signed integer. -/
theorem parseExponent?_eq_some {mark : Char} {rest : List Char} {e : Int} (isMark : mark = 'e' ∨ mark = 'E')
    (parsed : parseExponent? (mark :: rest) = some e) : ∃ p : Power, mark :: rest = p.text := by
  simp only [parseExponent?, Option.ite_none_right_eq_some, Bool.and_eq_true, List.all_eq_true, Bool.not_eq_true',
    List.isEmpty_eq_false_iff] at parsed
  obtain ⟨⟨all, given⟩, -⟩ := parsed
  obtain ⟨s, isSigned, split, -⟩ := sign_split rest
  refine ⟨⟨mark, s, (sign rest).2, isMark, isSigned, given, all⟩, ?_⟩
  rw [Power.text, List.cons_append, ← split]

/-- What parses as a decimal is spelled as one. -/
theorem parseDecimal?_eq_some {negative : Bool} {cs : List Char} {x : Float}
    (parsed : parseDecimal? negative cs = some x) :
    ∃ (whole : List Char) (f : Option (List Char)) (p : Option Power), (∀ c ∈ whole, c.isDigit = true) ∧
      (∀ ds ∈ f, ∀ c ∈ ds, c.isDigit = true) ∧ (whole ≠ [] ∨ ∃ ds ∈ f, ds ≠ []) ∧
      cs = whole ++ (Spelling.pointText f ++ Spelling.powerText p) := by
  simp only [parseDecimal?] at parsed
  have cut := takeWhile_cut (fun c => c ≠ 'e' && c ≠ 'E') cs
  generalize cs.takeWhile (fun c => c ≠ 'e' && c ≠ 'E') = mantissa at parsed cut
  split at parsed
  · next whole fraction e isMantissa isExponent =>
    obtain ⟨f, inWhole, inFraction, given, rfl⟩ := parseMantissa?_eq_some isMantissa
    obtain rfl | ⟨mark, rest, isMark, rfl⟩ := cut
    · exact ⟨whole, f, none, inWhole, inFraction, given, by simp [Spelling.powerText]⟩
    · rw [List.drop_left] at isExponent
      have marked : mark = 'e' ∨ mark = 'E' := by simpa [or_iff_not_imp_left] using isMark
      obtain ⟨p, text⟩ := parseExponent?_eq_some marked isExponent
      exact ⟨whole, f, some p, inWhole, inFraction, given, by rw [text, List.append_assoc]; rfl⟩
  · cases parsed

theorem isAlpha_of_toLower {c : Char} (lower : c.toLower.isAlpha = true) : c.isAlpha = true := by
  unfold Char.toLower at lower
  split at lower
  · next isUpper =>
    simp only [Char.isAlpha, Char.isUpper, Bool.or_eq_true, decide_eq_true_eq]
    exact .inl isUpper
  · exact lower

/-- A text of which the lower case begins with a letter begins with a letter. -/
theorem head_isAlpha_of_map {body word : List Char} {letter : Char} (isAlpha : letter.isAlpha = true)
    (lower : body.map Char.toLower = letter :: word) : ∃ c rest, body = c :: rest ∧ c.isAlpha = true := by
  obtain ⟨c, rest, rfl, isLetter, -⟩ := List.map_eq_cons_iff.1 lower
  exact ⟨c, rest, rfl, isAlpha_of_toLower (isLetter ▸ isAlpha)⟩

theorem not_isSign_of_isAlpha {c : Char} (isAlpha : c.isAlpha = true) : isSign c = false := by
  rw [Bool.eq_false_iff]
  intro signed
  obtain rfl | rfl := eq_of_isSign signed <;> cases isAlpha

theorem isSign_of_mem {s : List Char} (isSigned : s ∈ [[], ['+'], ['-']]) : ∀ c ∈ s, isSign c = true := by
  fin_cases isSigned <;> simp [isSign]

/-- Behind a sign that is followed by none, no signs are left. -/
theorem dropWhile_isSign {s rest : List Char} (isSigned : s ∈ [[], ['+'], ['-']])
    (leads : rest.head?.any isSign = false) : (s ++ rest).dropWhile isSign = rest := by
  rw [List.dropWhile_append_of_pos (isSign_of_mem isSigned)]
  cases rest with
  | nil => rfl
  | cons c rest => simpa using leads

theorem not_isAlpha_of_isDigit {c : Char} (isDigit : c.isDigit = true) : c.isAlpha = false := by
  have listed := Grammar.mem_digits_iff.2 isDigit
  fin_cases listed <;> rfl

/-- Behind its sign a numeral begins with a digit or a point. -/
theorem unsigned_text (s : Spelling) :
    ∃ c rest, s.text.dropWhile isSign = c :: rest ∧ (c.isDigit = true ∨ c = '.') := by
  obtain ⟨sgn, whole, f, p, isSigned, all, fraction, given⟩ := s
  obtain ⟨c, head, first⟩ := head_mantissa all given (Spelling.powerText p)
  obtain ⟨rest, body⟩ := List.head?_eq_some_iff.1 head
  refine ⟨c, rest, ?_, first⟩
  have unsigned : isSign c = false := by
    obtain ⟨notPlus, notMinus⟩ := not_sign_of_head head first c head
    simp [isSign, notPlus, notMinus]
  rw [Spelling.text, dropWhile_isSign isSigned (by simpa [head] using unsigned), body]

/-- What parses and begins with no letter behind its signs is a numeral. -/
theorem exists_spelling_of_parse? {cs : List Char} {x : Float} (parsed : parse? cs = some x)
    (noLetter : (cs.dropWhile isSign).head?.any Char.isAlpha = false) : ∃ s : Spelling, s.text = cs := by
  obtain ⟨s, isSigned, split, -⟩ := sign_split cs
  have noWord (letter : Char) (word : List Char) (isAlpha : letter.isAlpha = true) :
      (sign cs).2.map Char.toLower ≠ letter :: word := by
    intro lower
    obtain ⟨c, rest, body, first⟩ := head_isAlpha_of_map isAlpha lower
    have unsigned : cs.dropWhile isSign = c :: rest := by
      rw [split, body]
      exact dropWhile_isSign isSigned (by simpa using not_isSign_of_isAlpha first)
    rw [unsigned] at noLetter
    simp [first] at noLetter
  simp only [parse?, noWord 'n' _ rfl, noWord 'i' _ rfl, or_self, if_false] at parsed
  obtain ⟨whole, f, p, inWhole, inFraction, given, body⟩ := parseDecimal?_eq_some parsed
  exact ⟨⟨s, whole, f, p, isSigned, inWhole, inFraction, given⟩, by rw [Spelling.text, ← body, ← split]⟩

theorem mem_signs_of_length {s : List Char} (short : s.length ≤ 1) (signs : ∀ c ∈ s, isSign c = true) :
    s ∈ [[], ['+'], ['-']] := by
  match s with
  | [] => simp
  | [c] =>
    obtain rfl | rfl := eq_of_isSign (signs c (by simp)) <;> simp
  | _ :: _ :: _ => simp at short

/-- The test by parsing accepts exactly the texts of the grammar, outer blanks aside. -/
theorem parsesAsNumber_iff {text : String} :
    parsesAsNumber text = true ↔ Text.trim text.toList ∈ Grammar.number.matches' := by
  unfold parsesAsNumber
  generalize Text.trim text.toList = cs
  rw [Grammar.mem_number]
  constructor
  · intro accepted
    simp only [List.isEmpty_iff] at accepted
    split_ifs at accepted with empty infinite
    · have split : cs = cs.takeWhile isSign ++ infinityWord := by
        rw [← infinite, List.takeWhile_append_dropWhile]
      have short : (cs.takeWhile isSign).length ≤ 1 := by
        have total := congrArg List.length split
        rw [List.length_append] at total
        rw [infinite, decide_eq_true_eq] at accepted
        omega
      exact .inr ⟨cs.takeWhile isSign, mem_signs_of_length short fun c => List.mem_takeWhile_imp, split.symm⟩
    · rw [Bool.and_eq_true, Bool.not_eq_true', Option.isSome_iff_exists] at accepted
      obtain ⟨⟨x, parsed⟩, noLetter⟩ := accepted
      exact .inl (exists_spelling_of_parse? parsed noLetter)
  · rintro (⟨s, rfl⟩ | ⟨s, isSigned, rfl⟩)
    · obtain ⟨c, rest, unsigned, first⟩ := unsigned_text s
      have given : s.text ≠ [] := by
        rintro empty
        rw [empty] at unsigned
        cases unsigned
      have notWord : c :: rest ≠ infinityWord := by
        rintro ⟨⟩
        obtain isDigit | isPoint := first <;> contradiction
      have noLetter : c.isAlpha = false := by
        obtain isDigit | rfl := first
        · exact not_isAlpha_of_isDigit isDigit
        · rfl
      simp [unsigned, given, notWord, noLetter, parse?_spelling]
    · have unsigned : (s ++ infinityWord).dropWhile isSign = infinityWord := dropWhile_isSign isSigned rfl
      have short : s.length ≤ 1 := by fin_cases isSigned <;> simp
      have length : (s ++ infinityWord).length - infinityWord.length ≤ 1 := by
        rw [List.length_append]
        omega
      simp only [unsigned, if_true, length, decide_true]
      rw [if_neg (by simp [infinityWord])]

/-! ## Asking by scanning -/

/-- The test by scanning accepts the same texts. -/
theorem isNumeric_iff {text : String} :
    isNumeric text = true ↔ Text.trim text.toList ∈ Grammar.number.matches' := by
  unfold isNumeric
  generalize Text.trim text.toList = cs
  rw [Grammar.mem_number, Bool.or_eq_true, beq_iff_eq]
  constructor
  · rintro (infinite | whole)
    · obtain ⟨s, isSigned, split, -⟩ := sign_split cs
      exact .inr ⟨s, isSigned, by rw [split, infinite]⟩
    · cases found : scan? cs with
      | none => simp [found] at whole
      | some scanned =>
        obtain ⟨n, rest⟩ := scanned
        obtain ⟨s, split, -⟩ := scan?_eq_some found
        obtain rfl : rest = [] := by simpa [found] using whole
        exact .inl ⟨s, by rw [split, List.append_nil]⟩
  · rintro (⟨s, rfl⟩ | ⟨s, isSigned, rfl⟩)
    · obtain ⟨n, left, found, less⟩ := scan?_spelling s []
      rw [List.append_nil] at found
      rw [found, List.suffix_nil.1 less]
      exact .inr rfl
    · have signed : sign (s ++ infinityWord) = (decide (s = ['-']), infinityWord) :=
        sign_append isSigned (by simp [infinityWord])
      exact .inl (by rw [signed])

/-! ## What is read of a number -/

theorem not_isBlank_of_isDigit {c : Char} (isDigit : c.isDigit = true) : Text.isBlank c = false := by
  have listed := Grammar.mem_digits_iff.2 isDigit
  fin_cases listed <;> rfl

theorem not_isBlank_of_sign {s : List Char} (isSigned : s ∈ [[], ['+'], ['-']]) :
    ∀ c ∈ s, Text.isBlank c = false := by
  intro c mem
  obtain rfl | rfl := eq_of_isSign (isSign_of_mem isSigned c mem) <;> rfl

theorem Power.not_isBlank (p : Power) : ∀ c ∈ p.text, Text.isBlank c = false := by
  obtain ⟨mark, s, ds, isMark, isSigned, -, all⟩ := p
  intro c mem
  rw [Power.text, List.cons_append, List.mem_cons, List.mem_append] at mem
  obtain rfl | inSign | inDigits := mem
  · obtain rfl | rfl := isMark <;> rfl
  · exact not_isBlank_of_sign isSigned c inSign
  · exact not_isBlank_of_isDigit (all c inDigits)

/-- No character of a numeral is blank. -/
theorem Spelling.not_isBlank (s : Spelling) : ∀ c ∈ s.text, Text.isBlank c = false := by
  obtain ⟨sgn, whole, f, p, isSigned, all, fraction, -⟩ := s
  intro c mem
  rw [Spelling.text, ← List.append_assoc whole, List.mem_append, List.mem_append] at mem
  obtain inSign | inMantissa | inPower := mem
  · exact not_isBlank_of_sign isSigned c inSign
  · obtain isDigit | rfl := mem_mantissa_chars all fraction inMantissa
    · exact not_isBlank_of_isDigit isDigit
    · rfl
  · cases p with
    | none => cases inPower
    | some p => exact p.not_isBlank c inPower

/-- A number that is followed by blanks is read as a whole and nothing else is. -/
theorem leadingPart?_of_number {part blanks : List Char} (isNumber : part ∈ Grammar.number.matches')
    (blank : ∀ c ∈ blanks, Text.isBlank c = true) : leadingPart? (part ++ blanks) = some (part, blanks) := by
  obtain ⟨s, rfl⟩ | ⟨s, isSigned, rfl⟩ := Grammar.mem_number.1 isNumber
  · obtain ⟨n, left, found, more, rfl⟩ := scan?_spelling s blanks
    obtain ⟨t, split, -, isPart⟩ := leadingPart?_of_scan? found
    rw [← List.append_assoc] at split
    have longer : s.text ++ more = t.text := List.append_cancel_right split
    -- What the scanner takes beyond the number would be blank.
    obtain rfl : more = [] := by
      apply List.eq_nil_iff_forall_not_mem.2
      intro c mem
      have inside : c ∈ t.text := longer ▸ List.mem_append_right s.text mem
      have isBlank := blank c (List.mem_append_left left mem)
      rw [t.not_isBlank c inside] at isBlank
      cases isBlank
    rw [isPart, ← longer, List.append_nil, List.nil_append]
  · rw [List.append_assoc]
    exact leadingPart?_of_infinite isSigned blanks

/-- A number is parsed as it stands, with or without the points at its end. -/
theorem parse?_of_number {part : List Char} (isNumber : part ∈ Grammar.number.matches') :
    ∃ x : Float, parse? part = some x ∧ parse? (part.rdropWhile (· == '.')) = some x ∧ x.isNaN = false := by
  obtain ⟨s, rfl⟩ | ⟨s, isSigned, rfl⟩ := Grammar.mem_number.1 isNumber
  · exact ⟨s.numeral.toFloat, parse?_spelling s, parse?_without_point s, Decimal.isNaN_toFloat _ _⟩
  · rw [rdropWhile_infinite isSigned, parse?_infinite isSigned]
    exact ⟨_, rfl, rfl, Binary.isNaN_ofMagnitude _ (Nat.le_refl _)⟩

theorem trimLeft_eq_append (cs : List Char) :
    ∃ blanks, (∀ c ∈ blanks, Text.isBlank c = true) ∧ Text.trimLeft cs = Text.trim cs ++ blanks := by
  refine ⟨(Text.trimLeft cs).rtakeWhile Text.isBlank, fun c mem => List.mem_rtakeWhile_imp mem, ?_⟩
  exact List.rdropWhile_append_rtakeWhile.symm

/-- The whole text is read, and its value is the number at its start. -/
theorem reads_of_isNumeric {text : String} (isNumber : isNumeric text = true) :
    (∃ blanks, (∀ c ∈ blanks, Text.isBlank c = true) ∧
      leadingPart? (Text.trimLeft text.toList) = some (Text.trim text.toList, blanks)) ∧
      parse? (Text.trim text.toList) = some (leadingNumber text) ∧ (leadingNumber text).isNaN = false := by
  have matched := isNumeric_iff.1 isNumber
  obtain ⟨blanks, blank, split⟩ := trimLeft_eq_append text.toList
  have part := leadingPart?_of_number matched blank
  rw [← split] at part
  obtain ⟨x, parsed, pointless, number⟩ := parse?_of_number matched
  have value := leadingNumber?_eq_parse text
  rw [leadingNumber?_eq, part, Option.map_some, pointless, Option.getD_some, Option.some.injEq] at value
  rw [value]
  exact ⟨⟨blanks, blank, part⟩, parsed, number⟩

/-- Which texts are numbers, and what is read of them. Scanning and parsing accept the same texts, those
that match the grammar without their outer blanks. The number at the start of such a text is read from
all that stands between the blanks; this is its value, which is a number or an infinity. So a literal text
in the place of a number is compiled to a number exactly if it is one, and to the value of all of it. -/
theorem isNumeric_reads_whole (text : String) :
    isNumeric text = parsesAsNumber text ∧
      (isNumeric text = true ↔ Text.trim text.toList ∈ Grammar.number.matches') ∧
      (some (leadingNumber text) = (leadingPart? (Text.trimLeft text.toList)).map fun part =>
        (parse? (part.1.rdropWhile (· == '.'))).getD notANumber) ∧
      (isNumeric text = true →
        (∃ blanks, (∀ c ∈ blanks, Text.isBlank c = true) ∧
          leadingPart? (Text.trimLeft text.toList) = some (Text.trim text.toList, blanks)) ∧
        parse? (Text.trim text.toList) = some (leadingNumber text) ∧ (leadingNumber text).isNaN = false) ∧
      ∀ (owner : Block) (slot : String) (value : Float),
        (Compile.literal owner slot .string text .numeric : Outcome Operand).result = .ok (.number value) ↔
          isNumeric text = true ∧ parse? (Text.trim text.toList) = some value := by
  refine ⟨?_, isNumeric_iff, ?_, reads_of_isNumeric, fun owner slot value => ?_⟩
  · rw [Bool.eq_iff_iff, isNumeric_iff, parsesAsNumber_iff]
  · rw [← leadingNumber?_eq, leadingNumber?_eq_parse]
  · have kind : Compile.isNumber .string text = isNumeric text := rfl
    rw [Compile.literal_number_iff, kind]
    refine and_congr_right fun isNumber => ?_
    obtain ⟨-, parsed, -⟩ := reads_of_isNumeric isNumber
    rw [parsed, Option.some.injEq]

/-- A text with blanks of two kinds around it is read whole. -/
theorem isNumeric_reads_whole_padded :
    isNumeric "\u00a0-2.5e2\t" = true ∧
      (∃ blanks, (∀ c ∈ blanks, Text.isBlank c = true) ∧
        leadingPart? (Text.trimLeft "\u00a0-2.5e2\t".toList) = some ("-2.5e2".toList, blanks)) ∧
      parse? "-2.5e2".toList = some (leadingNumber "\u00a0-2.5e2\t") ∧
      (leadingNumber "\u00a0-2.5e2\t").isNaN = false := by
  have accepted : isNumeric "\u00a0-2.5e2\t" = true := by decide +kernel
  have trimmed : Text.trim "\u00a0-2.5e2\t".toList = "-2.5e2".toList := by decide +kernel
  have reads := (isNumeric_reads_whole "\u00a0-2.5e2\t").2.2.2.1 accepted
  rw [trimmed] at reads
  exact ⟨accepted, reads⟩

end ScratchPage.Numeral
