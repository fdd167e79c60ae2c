import ScratchPage.Code.Fragment
import ScratchPage.Proofs.Lexical.Token

/-!
# How values read

The forms in which values stand in code, as the reader sees them. A quoted text is one string token
whatever characters it has; a number is one number token after an optional minus sign; JSON data is a
nest of brackets around such tokens; a comment leaves no token but its own.
-/

namespace ScratchPage.Lexical
set_option autoImplicit false

/-! ## Strings -/

/-- The text neither ends the string it stands in nor breaks its line. -/
def InString (text : List Char) : Prop :=
  ∀ content, run (.string content) text = some ([], .string (content ++ text))

theorem InString.nil : InString [] := by
  intro content
  simp

theorem InString.append {a b : List Char} (first : InString a) (second : InString b) :
    InString (a ++ b) := by
  intro content
  rw [run_append, first content]
  simp [second (content ++ a)]

theorem InString.flatMap {f : Char → List Char} (each : ∀ c, InString (f c)) (text : List Char) :
    InString (text.flatMap f) := by
  induction text with
  | nil => exact .nil
  | cons c text ih => exact (each c).append ih

/-- The character stands for itself in a string. -/
def isStringChar (c : Char) : Bool := c != '"' && c != '\\' && !isTerminator c

theorem inString_plain {c : Char} (plain : isStringChar c = true) : InString [c] := by
  intro content
  simp only [isStringChar, Bool.and_eq_true, bne_iff_ne, Bool.not_eq_true'] at plain
  simp [run_cons, step, Mode.continues, Mode.advance, plain]

theorem inString_escaped {c : Char} (line : isTerminator c = false) : InString ['\\', c] := by
  intro content
  have slash : isTerminator '\\' = false := by decide
  simp [run_cons, step, Mode.continues, Mode.advance, line, slash]

/-- An escape with a code point: a backslash, a letter and plain characters. -/
theorem inString_code {letter : Char} {digits : List Char} (line : isTerminator letter = false)
    (plain : digits.all isStringChar = true) : InString ('\\' :: letter :: digits) := by
  have rest : InString digits := by
    induction digits with
    | nil => exact .nil
    | cons d digits ih =>
      rw [List.all_cons, Bool.and_eq_true] at plain
      exact (inString_plain plain.1).append (ih plain.2)
  exact (inString_escaped line).append rest

/-- Escaped characters stay in the string. -/
theorem inString_escapeChar (c : Char) : InString (Text.escapeChar c) := by
  unfold Text.escapeChar
  split_ifs with backslash quote feed ret ls ps less
  · exact inString_escaped (by decide)
  · exact inString_escaped (by decide)
  · exact inString_escaped (by decide)
  · exact inString_escaped (by decide)
  · exact inString_code (by decide) (by decide)
  · exact inString_code (by decide) (by decide)
  · exact inString_code (by decide) (by decide)
  · exact inString_plain (by simp [isStringChar, isTerminator, backslash, quote, feed, ret, ls, ps])

theorem hexDigit_plain : ∀ n < 16, Text.guardChar (Json.hexDigit n) = [Json.hexDigit n] ∧
    isStringChar (Json.hexDigit n) = true := by
  decide

/-- A character of a JSON string stays inside the string after the escapes of both levels. -/
theorem inString_guarded (c : Char) : InString ((Json.escapeChar c).flatMap Text.guardChar) := by
  unfold Json.escapeChar
  split_ifs with quote backslash feed ret tab back form control
  · exact inString_escaped (by decide)
  · exact inString_escaped (by decide)
  · exact inString_escaped (by decide)
  · exact inString_escaped (by decide)
  · exact inString_escaped (by decide)
  · exact inString_escaped (by decide)
  · exact inString_escaped (by decide)
  · have high := hexDigit_plain (c.toNat / 16) (by omega)
    have low := hexDigit_plain (c.toNat % 16) (by omega)
    have text : ['\\', 'u', '0', '0', Json.hexDigit (c.toNat / 16), Json.hexDigit (c.toNat % 16)].flatMap
        Text.guardChar =
        ['\\', 'u', '0', '0', Json.hexDigit (c.toNat / 16), Json.hexDigit (c.toNat % 16)] := by
      simp only [List.flatMap_cons, high.1, low.1]
      rfl
    have zero : isStringChar '0' = true := by decide
    rw [text]
    exact inString_code (by decide) (by simp [zero, high.2, low.2])
  · simp only [List.flatMap_cons, List.flatMap_nil, List.append_nil]
    unfold Text.guardChar
    split_ifs with less ls ps
    · exact inString_code (by decide) (by decide)
    · exact inString_code (by decide) (by decide)
    · exact inString_code (by decide) (by decide)
    · exact inString_plain (by simp [isStringChar, isTerminator, quote, backslash, feed, ret, ls, ps])

/-- A text in quotation marks is one token. -/
theorem InString.run_quoted {text : List Char} (inside : InString text) :
    run .idle ('"' :: text ++ ['"']) = some ([.string text], .idle) := by
  rw [List.cons_append, run_cons, show step .idle '"' = some ([], .string []) from rfl]
  simp only [Option.bind_some]
  rw [run_append, inside []]
  rfl

theorem quoted_toList (text : String) :
    (Text.quoted text).toList = '"' :: text.toList.flatMap Text.escapeChar ++ ['"'] := by
  simp [Text.quoted, Text.escape]

/-! ## Comments -/

/-- The text of a comment has neither an asterisk nor a line terminator. -/
theorem commentText_plain (text : String) :
    ∀ c ∈ (Text.commentText text).toList, isTerminator c = false ∧ c ≠ '*' := by
  intro c mem
  simp only [Text.commentText, String.toList_ofList, List.mem_map] at mem
  obtain ⟨d, -, rfl⟩ := mem
  split_ifs with allowed
  · constructor
    · by_contra line
      simp only [isTerminator, Bool.not_eq_false, Bool.or_eq_true, beq_iff_eq, or_assoc] at line
      rcases line with rfl | rfl | rfl | rfl <;> exact absurd allowed (by decide)
    · rintro rfl
      exact absurd allowed (by decide)
  · decide

theorem run_blockComment {text : List Char} (plain : ∀ c ∈ text, isTerminator c = false ∧ c ≠ '*') :
    run .blockComment text = some ([], .blockComment) := by
  induction text with
  | nil => rfl
  | cons c text ih =>
    obtain ⟨line, star⟩ := plain c (by simp)
    simp [run_cons, step, Mode.continues, Mode.advance, line, star, ih fun d mem => plain d (by simp [mem])]

theorem run_lineComment {text : List Char} (plain : ∀ c ∈ text, isTerminator c = false) :
    run .lineComment text = some ([], .lineComment) := by
  induction text with
  | nil => rfl
  | cons c text ih =>
    simp [run_cons, step, Mode.continues, Mode.advance, plain c (by simp),
      ih fun d mem => plain d (by simp [mem])]

/-- A comment is read as one token. -/
theorem run_comment (text : String) :
    run .idle (Fragment.comment text).text.toList = some ([.comment], .idle) := by
  have split : (Fragment.comment text).text.toList =
      ['/', '*'] ++ ((Text.commentText text).toList ++ ['*', '/']) := by
    simp [Fragment.text]
  rw [split, run_append, show run .idle ['/', '*'] = some ([.comment], .blockComment) from rfl]
  simp only [Option.bind_some]
  rw [run_append, run_blockComment (commentText_plain text)]
  rfl

theorem run_remark (text : String) :
    run .idle ("// " ++ Text.commentText text).toList = some ([.comment], .lineComment) := by
  rw [String.toList_append, run_append,
    show run .idle "// ".toList = some ([.comment], .lineComment) from rfl]
  simp only [Option.bind_some]
  rw [run_lineComment fun c mem => (commentText_plain text c mem).1]
  rfl

/-! ## Numbers -/

/-- A digit and characters that belong to the same number. -/
structure IsNumeral (text : List Char) : Prop where
  reads : ∃ c rest, text = c :: rest ∧ c.isDigit = true ∧
    run (.number [c]) rest = some ([], .number text)
  chars : ∀ c ∈ text, c.isDigit = true ∨ c ∈ ['.', 'e', '+', '-']

/-- Digits and points go on with a number. -/
theorem run_numberChars {rest : List Char} (plain : ∀ c ∈ rest, c.isDigit = true ∨ c = '.')
    (text : List Char) : run (.number text) rest = some ([], .number (text ++ rest)) := by
  induction rest generalizing text with
  | nil => simp
  | cons c rest ih =>
    have goesOn : (Mode.number text).continues c = true := by
      rcases plain c (by simp) with digit | rfl
      · simp [Mode.continues, isWordChar, Char.isAlphanum, digit]
      · simp [Mode.continues]
    simp [run_cons, step, goesOn, Mode.advance, ih fun d mem => plain d (by simp [mem])]

theorem IsNumeral.of_digits {c : Char} {rest : List Char} (digit : c.isDigit = true)
    (plain : ∀ d ∈ rest, d.isDigit = true ∨ d = '.') : IsNumeral (c :: rest) where
  reads := ⟨c, rest, rfl, digit, run_numberChars plain [c]⟩
  chars := by
    intro d mem
    rcases List.mem_cons.1 mem with rfl | mem
    · exact .inl digit
    · exact (plain d mem).imp_right (by rintro rfl; decide)

theorem digitChars_digit {n : Nat} : ∀ c ∈ Decimal.digitChars n, c.isDigit = true :=
  fun _ mem => Nat.isDigit_of_mem_toDigits (by decide) (by decide) mem

theorem digitChars_cons (n : Nat) :
    ∃ c rest, Decimal.digitChars n = c :: rest ∧ c.isDigit = true ∧ ∀ d ∈ rest, d.isDigit = true := by
  obtain ⟨c, rest, eq⟩ := List.exists_cons_of_ne_nil (Nat.toDigits_ne_nil (b := 10) (n := n))
  have all := digitChars_digit (n := n)
  rw [Decimal.digitChars, eq] at all
  exact ⟨c, rest, eq, all c (by simp), fun d mem => all d (by simp [mem])⟩

theorem isNumeral_digitChars (n : Nat) : IsNumeral (Decimal.digitChars n) := by
  obtain ⟨c, rest, eq, digit, all⟩ := digitChars_cons n
  rw [eq]
  exact .of_digits digit fun d mem => .inl (all d mem)

/-- Both parts of a pointed number are digits, and there is one before the point. -/
theorem pointed_digits (n : Nat) (place : Int) :
    ∃ c whole fraction, Decimal.pointed (Decimal.digitChars n) place = (c :: whole, fraction) ∧
      c.isDigit = true ∧ (∀ d ∈ whole, d.isDigit = true) ∧ ∀ d ∈ fraction, d.isDigit = true := by
  obtain ⟨c, rest, eq, digit, all⟩ := digitChars_cons n
  have zero : ('0' : Char).isDigit = true := by decide
  unfold Decimal.pointed
  split
  · refine ⟨'0', [], _, rfl, zero, by simp, fun d mem => ?_⟩
    rcases List.mem_append.1 mem with pad | mem
    · exact List.eq_of_mem_replicate pad ▸ zero
    · exact digitChars_digit d mem
  · obtain ⟨k, hk⟩ : ∃ k, place.toNat = k + 1 := ⟨place.toNat - 1, by omega⟩
    simp only [hk, eq, List.take_succ_cons, List.drop_succ_cons, List.cons_append]
    refine ⟨c, _, _, rfl, digit, fun d mem => ?_, fun d mem => all d (List.mem_of_mem_drop mem)⟩
    rcases List.mem_append.1 mem with mem | pad
    · exact all d (List.mem_of_mem_take mem)
    · exact List.eq_of_mem_replicate pad ▸ zero

/-- Digits, a point and more digits are a numeral. -/
theorem IsNumeral.of_parts {c : Char} {whole fraction : List Char} (digit : c.isDigit = true)
    (before : ∀ d ∈ whole, d.isDigit = true) (after : ∀ d ∈ fraction, d.isDigit = true) :
    IsNumeral (c :: whole ++ '.' :: fraction) := by
  rw [List.cons_append]
  refine .of_digits digit fun d mem => ?_
  simp only [List.mem_append, List.mem_cons] at mem
  rcases mem with mem | rfl | mem
  · exact .inl (before d mem)
  · exact .inr rfl
  · exact .inl (after d mem)

/-- Plain digits are a numeral. -/
theorem isNumeral_plain (d : Decimal) : IsNumeral d.plain := by
  obtain ⟨c, whole, fraction, eq, digit, before, after⟩ := pointed_digits d.digits d.pointPlace
  unfold Decimal.plain
  split
  · exact .of_digits (by decide) (by simp)
  · simp only [eq]
    split
    · exact .of_digits digit fun d mem => .inl (before d mem)
    · exact .of_parts digit before after

/-- An exponent belongs to the number before it. -/
theorem IsNumeral.exponent {text : List Char} (numeral : IsNumeral text) {sign : Char}
    (either : sign = '+' ∨ sign = '-') (n : Nat) :
    IsNumeral (text ++ ['e', sign] ++ Decimal.digitChars n) := by
  obtain ⟨⟨c, rest, rfl, digit, read⟩, chars⟩ := numeral
  have last : (c :: (rest ++ ['e'])).getLast? = some 'e' := by
    rw [← List.cons_append, List.getLast?_concat]
  have mark : run (.number (c :: rest)) ['e', sign] = some ([], .number (c :: rest ++ ['e', sign])) := by
    rcases either with rfl | rfl <;>
      simp [run_cons, step, Mode.continues, Mode.advance, isWordChar, last]
  constructor
  · refine ⟨c, rest ++ ['e', sign] ++ Decimal.digitChars n, by simp, digit, ?_⟩
    rw [run_append, run_append, read]
    simp only [Option.bind_some]
    rw [mark]
    simp [run_numberChars fun c mem => .inl (digitChars_digit c mem)]
  · intro d mem
    simp only [List.mem_append] at mem
    rcases mem with (mem | mem) | mem
    · exact chars d mem
    · simp only [List.mem_cons, List.not_mem_nil, or_false] at mem
      rcases mem with rfl | rfl
      · exact .inr (by decide)
      · rcases either with rfl | rfl <;> exact .inr (by decide)
    · exact .inl (digitChars_digit d mem)

/-- Digits with an exponent are a numeral, whichever sign the exponent has. -/
theorem isNumeral_scientific (d : Decimal) : IsNumeral d.scientific := by
  unfold Decimal.scientific
  split
  · exact @IsNumeral.of_parts '0' [] ['0'] (by decide) (by simp) (List.forall_mem_singleton.2 (by decide))
  · simp only
    split
    · obtain ⟨c, whole, fraction, eq, digit, before, after⟩ := pointed_digits d.digits d.pointPlace
      rw [eq]
      refine .of_parts digit before fun e mem => ?_
      split at mem
      · exact List.eq_of_mem_singleton mem ▸ by decide
      · exact after e mem
    · obtain ⟨c, rest, eq, digit, all⟩ := digitChars_cons d.digits
      refine IsNumeral.exponent ?_ (by split <;> simp) _
      rw [eq]
      split
      · exact .of_digits digit (by simp)
      · exact @IsNumeral.of_parts c [] rest digit (by simp) all

/-- A digit begins a number. -/
theorem step_digit {c : Char} (digit : c.isDigit = true) : step .idle c = some ([], .number [c]) := by
  have other : ∀ d, d.isDigit = false → (c == d) = false := by
    intro d other
    rw [beq_eq_false_iff_ne]
    rintro rfl
    rw [digit] at other
    cases other
  have space : isSpace c = false := by simp [isSpace, isTerminator, other]
  have quote : (c == '"') = false := other _ (by decide)
  have bracket : bracket? c = none := by simp [bracket?, other]
  simp [step, Mode.continues, Mode.finish, start, space, quote, bracket, digit]

theorem IsNumeral.run {text : List Char} (numeral : IsNumeral text) :
    run .idle text = some ([], .number text) := by
  obtain ⟨⟨c, rest, rfl, digit, read⟩, -⟩ := numeral
  simp [run_cons, step_digit digit, read]

/-- A numeral behind a minus is a sign and a number. -/
theorem IsNumeral.run_minus {text : List Char} (numeral : IsNumeral text) :
    Lexical.run .idle ('-' :: text) = some ([.sign ['-']], .number text) := by
  have read := numeral.run
  obtain ⟨⟨c, rest, rfl, digit, -⟩, -⟩ := numeral
  have apart : (Mode.sign ['-']).continues c = false := by
    have minus : c ≠ '-' := by rintro rfl; cases digit
    have equals : c ≠ '=' := by rintro rfl; cases digit
    simp [Mode.continues, longSigns, minus, equals]
  rw [run_cons, show step .idle '-' = some ([], .sign ['-']) from rfl]
  simp only [Option.bind_some]
  rw [run_of_not_continues rest rfl apart, read]
  rfl

/-- Nothing in a numeral is guarded. -/
theorem IsNumeral.guarded {text : List Char} (numeral : IsNumeral text) :
    text.flatMap Text.guardChar = text := by
  have fixed : ∀ c ∈ text, Text.guardChar c = [c] := by
    intro c mem
    have plain : c ≠ '<' ∧ c ≠ '\u2028' ∧ c ≠ '\u2029' := by
      rcases numeral.chars c mem with digit | listed
      · refine ⟨?_, ?_, ?_⟩ <;> (rintro rfl; cases digit)
      · simp only [List.mem_cons, List.not_mem_nil, or_false] at listed
        rcases listed with rfl | rfl | rfl | rfl <;> decide
    simp [Text.guardChar, plain]
  rw [List.flatMap_congr fixed, List.flatMap_singleton']

/-! ## Values -/

/-- The words that stand for values. -/
def valueWords : List (List Char) :=
  [['t', 'r', 'u', 'e'], ['f', 'a', 'l', 's', 'e'], ['n', 'u', 'l', 'l'], ['N', 'a', 'N'],
   ['I', 'n', 'f', 'i', 'n', 'i', 't', 'y']]

/-- The tokens of values that neither nest nor separate. -/
def Token.isPlain : Token → Bool
  | .word text => text ∈ valueWords
  | .number _ => true
  | .string _ => true
  | .sign text => text ∉ [[','], [';'], ['=', '>']]
  | .comment => false
  | .opening _ => false
  | .closing _ => false

/-- The tokens of a value: plain ones and groups. Inside a group there are commas too. -/
inductive IsValue : (inGroup : Bool) → List Token → Prop
  | nil {inGroup : Bool} : IsValue inGroup []
  | plain {inGroup : Bool} {t : Token} : t.isPlain = true → IsValue inGroup [t]
  | comma : IsValue true [.sign [',']]
  | append {inGroup : Bool} {a b : List Token} :
      IsValue inGroup a → IsValue inGroup b → IsValue inGroup (a ++ b)
  | group {inGroup : Bool} (bracket : Bracket) {a : List Token} :
      IsValue true a → IsValue inGroup (.opening bracket :: a ++ [.closing bracket])

theorem IsValue.of_plain {inGroup : Bool} {ts : List Token} (plain : ∀ t ∈ ts, t.isPlain = true) :
    IsValue inGroup ts := by
  induction ts with
  | nil => exact .nil
  | cons t ts ih => exact (IsValue.plain (plain t (by simp))).append (ih fun u mem => plain u (by simp [mem]))

/-- A text that is read on its own as a value and does not turn a `!` before it into another sign. -/
structure ValueText (text : List Char) : Prop where
  reads : ∃ ts, Reads text ts ∧ ∀ inGroup, IsValue inGroup ts
  leads : ∃ c rest, text = c :: rest ∧ c ≠ '='

theorem ValueText.of_run {c : Char} {text : List Char} {out : List Token} {last : Mode}
    (read : run .idle (c :: text) = some (out, last)) (settled : last.isSettled = true)
    (plain : ∀ t ∈ out ++ last.tail, t.isPlain = true) (leads : c ≠ '=') : ValueText (c :: text) where
  reads := ⟨_, ⟨out, last, read, settled, rfl⟩, fun _ => .of_plain plain⟩
  leads := ⟨c, text, rfl, leads⟩

theorem ValueText.quoted {text : List Char} (inside : InString text) :
    ValueText ('"' :: text ++ ['"']) :=
  .of_run inside.run_quoted rfl (by simp [Mode.tail, Mode.finish, Token.isPlain]) (by decide)

theorem IsNumeral.valueText {text : List Char} (numeral : IsNumeral text) : ValueText text := by
  have read := numeral.run
  obtain ⟨⟨c, rest, rfl, digit, -⟩, -⟩ := numeral
  refine .of_run read rfl (by simp [Mode.tail, Mode.finish, Token.isPlain]) ?_
  rintro rfl
  cases digit

theorem IsNumeral.valueText_minus {text : List Char} (numeral : IsNumeral text) :
    ValueText ('-' :: text) :=
  .of_run numeral.run_minus rfl (by simp [Mode.tail, Mode.finish, Token.isPlain]) (by decide)

theorem IsNumeral.valueText_signed {text : List Char} (numeral : IsNumeral text) (f : Float) :
    ValueText (Decimal.signed f text).toList := by
  rw [Decimal.signed, String.toList_ofList]
  split
  · exact numeral.valueText_minus
  · exact numeral.valueText

theorem valueText_quoted (text : String) : ValueText (Text.quoted text).toList := by
  rw [quoted_toList]
  exact .quoted (InString.flatMap inString_escapeChar text.toList)

/-- The literal of a double is a value, whether it is finite or not. -/
theorem valueText_number (f : Float) : ValueText (numberLiteral f).toList := by
  unfold numberLiteral
  split
  · exact .of_run (c := 'N') rfl rfl (by decide) (by decide)
  · split
    · split
      · exact .of_run (c := '-') rfl rfl (by decide) (by decide)
      · exact .of_run (c := 'I') rfl rfl (by decide) (by decide)
    · exact (isNumeral_plain _).valueText_signed f

theorem valueText_integer (i : Int) : ValueText (Json.intText i).toList := by
  rw [Json.intText, String.toList_ofList]
  split
  · exact (isNumeral_digitChars _).valueText_minus
  · exact (isNumeral_digitChars _).valueText

/-! ## Data -/

/-- What may stand between the brackets of a group. -/
def GroupText (text : List Char) : Prop :=
  ∃ ts, IsValue true ts ∧ ∀ c rest, isBoundary c = true →
    run .idle (text ++ c :: rest) = (run .idle (c :: rest)).map fun last => (ts ++ last.1, last.2)

theorem GroupText.nil : GroupText [] := ⟨[], .nil, by simp⟩

theorem ValueText.groupText {text : List Char} (value : ValueText text) : GroupText text := by
  obtain ⟨ts, reads, isValue⟩ := value.reads
  exact ⟨ts, isValue true, fun c rest boundary => reads.run_append boundary rest⟩

/-- A comma or a colon is a token whatever follows. -/
theorem run_separator {sep : Char} (separator : sep = ',' ∨ sep = ':') (c : Char) (rest : List Char) :
    run .idle (sep :: c :: rest) =
      (run .idle (c :: rest)).map fun last => ([.sign [sep]] ++ last.1, last.2) := by
  have first : step .idle sep = some ([], .sign [sep]) := by rcases separator with rfl | rfl <;> rfl
  have apart : (Mode.sign [sep]).continues c = false := by
    rcases separator with rfl | rfl <;> simp [Mode.continues, longSigns]
  rw [run_cons, first]
  simp only [Option.bind_some]
  rw [run_of_not_continues rest rfl apart]
  simp [Function.comp_def]

/-- A value and a comma may be put before a group. -/
theorem GroupText.cons {first rest : List Char} (value : GroupText first) (group : GroupText rest) :
    GroupText (first ++ ',' :: rest) := by
  obtain ⟨a, isA, readA⟩ := value
  obtain ⟨b, isB, readB⟩ := group
  refine ⟨a ++ ([.sign [',']] ++ b), isA.append (IsValue.comma.append isB), fun c more boundary => ?_⟩
  obtain ⟨d, tail, next⟩ : ∃ d tail, rest ++ c :: more = d :: tail :=
    List.exists_cons_of_ne_nil (by simp)
  rw [List.append_assoc, List.cons_append, readA ',' _ (by decide), next,
    run_separator (.inl rfl), ← next, readB c more boundary]
  simp [Function.comp_def]

/-- A key and a value. -/
theorem ValueText.field {key text : List Char} (inside : InString key) (value : ValueText text) :
    ValueText ('"' :: key ++ ['"'] ++ ':' :: text) := by
  obtain ⟨ts, ⟨out, last, read, settled, rfl⟩, isValue⟩ := value.reads
  obtain ⟨c, rest, rfl, -⟩ := value.leads
  have colon : Token.isPlain (.sign [':']) = true := by decide
  refine ⟨⟨[.string key] ++ ([.sign [':']] ++ (out ++ last.tail)),
    ⟨[.string key] ++ ([.sign [':']] ++ out), last, ?_, settled, by simp⟩, fun inGroup =>
    (IsValue.plain rfl).append ((IsValue.plain colon).append (isValue inGroup))⟩,
    ⟨'"', _, rfl, by decide⟩⟩
  rw [Lexical.run_append, inside.run_quoted]
  simp only [Option.bind_some]
  rw [run_separator (.inr rfl), read]
  simp

/-- A group in brackets is a value. -/
theorem ValueText.inBrackets {text : List Char} (group : GroupText text) (left right : Char)
    {bracket : Bracket} (opens : step .idle left = some ([.opening bracket], .idle))
    (closes : step .idle right = some ([.closing bracket], .idle)) (boundary : isBoundary right = true)
    (leads : left ≠ '=') : ValueText (left :: text ++ [right]) := by
  obtain ⟨ts, isGroup, read⟩ := group
  refine ⟨⟨_, ⟨.opening bracket :: ts ++ [.closing bracket], .idle, ?_, rfl, rfl⟩, fun inGroup => ?_⟩,
    ⟨left, _, rfl, leads⟩⟩
  · rw [List.cons_append, run_cons, opens]
    simp only [Option.bind_some]
    rw [read right [] boundary, run_cons, closes]
    rfl
  · simpa [Mode.tail, Mode.finish] using isGroup.group bracket

theorem guarded_append (a b : String) :
    (Text.guarded (a ++ b)).toList = (Text.guarded a).toList ++ (Text.guarded b).toList := by
  simp [Text.guarded]

theorem guarded_quote (text : String) :
    (Text.guarded (Json.quote text)).toList =
      '"' :: text.toList.flatMap (fun c => (Json.escapeChar c).flatMap Text.guardChar) ++ ['"'] := by
  have quote : Text.guardChar '"' = ['"'] := by decide
  simp [Text.guarded, Json.quote, List.flatMap_assoc, quote]

theorem inString_guardedText (text : String) :
    InString (text.toList.flatMap fun c => (Json.escapeChar c).flatMap Text.guardChar) :=
  InString.flatMap inString_guarded text.toList

/-- Values with commas between them are a group. -/
theorem groupText_intercalate {texts : List String}
    (each : ∀ t ∈ texts, ValueText (Text.guarded t).toList) :
    GroupText (Text.guarded (",".intercalate texts)).toList := by
  induction texts with
  | nil => exact .nil
  | cons first texts ih =>
    have value := (each first (by simp)).groupText
    cases texts with
    | nil => simpa using value
    | cons second texts =>
      have comma : (Text.guarded ",").toList = [','] := by decide
      rw [String.intercalate_cons_cons, guarded_append, guarded_append, comma, List.append_assoc]
      exact value.cons (ih fun t mem => each t (by simp [mem]))

theorem IsNumeral.valueText_json {text : List Char} (numeral : IsNumeral text) (negative : Bool) :
    ValueText (Text.guarded (String.ofList (if negative then '-' :: text else text))).toList := by
  have minus : Text.guardChar '-' = ['-'] := by decide
  cases negative with
  | true => simpa [Text.guarded, minus, numeral.guarded] using numeral.valueText_minus
  | false => simpa [Text.guarded, numeral.guarded] using numeral.valueText

theorem valueText_jsonNumber (n : Json.Number) : ValueText (Text.guarded n.text).toList := by
  cases n with
  | int i =>
    have numeral := isNumeral_digitChars i.natAbs
    simpa [Json.Number.text, Json.intText] using numeral.valueText_json (decide (i < 0))
  | double f => exact (isNumeral_scientific _).valueText_json (Binary.isNegative f)

mutual

/-- Data is read on its own as a value. -/
theorem valueText_data : (value : Json) → ValueText value.literal.toList
  | .null => .of_run (c := 'n') rfl rfl (by decide) (by decide)
  | .bool true => .of_run (c := 't') rfl rfl (by decide) (by decide)
  | .bool false => .of_run (c := 'f') rfl rfl (by decide) (by decide)
  | .number n => valueText_jsonNumber n
  | .string text => by
    rw [Json.literal, Json.text, guarded_quote]
    exact .quoted (inString_guardedText text)
  | .array items => by
    have group := groupText_intercalate (valueText_items items)
    rw [Json.literal, Json.text, guarded_append, guarded_append]
    exact .inBrackets group '[' ']' rfl rfl rfl (by decide)
  | .object fields => by
    have group := groupText_intercalate (valueText_fields fields)
    rw [Json.literal, Json.text, guarded_append, guarded_append]
    exact .inBrackets group '\x7b' '\x7d' rfl rfl rfl (by decide)

theorem valueText_items : (items : List Json) →
    ∀ t ∈ Json.itemTexts items, ValueText (Text.guarded t).toList
  | [] => by simp [Json.itemTexts]
  | item :: rest => by
    have first := valueText_data item
    have others := valueText_items rest
    simpa [Json.itemTexts] using ⟨first, others⟩

/-- The fields of an object are values with a name before them. -/
theorem valueText_fields : (fields : List (String × Json)) →
    ∀ t ∈ Json.fieldTexts fields, ValueText (Text.guarded t).toList
  | [] => by simp [Json.fieldTexts]
  | (key, value) :: rest => by
    have first := ValueText.field (inString_guardedText key) (valueText_data value)
    have others := valueText_fields rest
    have colon : (Text.guarded ":").toList = [':'] := by decide
    have text : (Text.guarded (Json.quote key ++ ":" ++ value.text)).toList =
        '"' :: key.toList.flatMap (fun c => (Json.escapeChar c).flatMap Text.guardChar) ++ ['"'] ++
          ':' :: value.literal.toList := by
      rw [guarded_append, guarded_append, guarded_quote, colon, Json.literal]
      simp
    simp only [Json.fieldTexts, List.mem_cons, forall_eq_or_imp]
    exact ⟨text ▸ first, others⟩

end

end ScratchPage.Lexical
