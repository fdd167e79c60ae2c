import ScratchPage.Proofs.Json.Scalars
import ScratchPage.Proofs.Lexical.Strings

/-!
# Reading what was written

What the reader gives for the compact text of a value (`reread`) is the value again, up to the doubles,
which the reader rounds in its own way, and up to values that are nested too deep. It is the same for
every harmless way to write the characters. So guarded text, in which three of the characters of strings
are written by their codes, is read like the text it was made from.
-/

namespace ScratchPage.Json
set_option autoImplicit false

/-! ## The value that is read -/

/-- The number that is read from the text of a number. -/
def rereadNumber (n : Number) : Option Number := (readNumber n.text.toList).map (·.1)

mutual

/-- The value that is read, at most `depth` deep, from the text of a value. -/
def reread : Json → Nat → Option Json
  | .null, _ => some .null
  | .bool b, _ => some (.bool b)
  | .number n, _ => (rereadNumber n).map .number
  | .string s, _ => some (.string s)
  | .array _, 0 => none
  | .array items, depth + 1 => (rereadItems items depth).map .array
  | .object _, 0 => none
  | .object fields, depth + 1 => (rereadFields fields depth).map fun read => .object (Keyed.ofList read)

/-- The values that are read from the texts of values. -/
def rereadItems : List Json → Nat → Option (List Json)
  | [], _ => some []
  | item :: rest, depth => (reread item depth).bind fun first => (rereadItems rest depth).map (first :: ·)

/-- The fields that are read from the texts of fields. -/
def rereadFields : List (String × Json) → Nat → Option (List (String × Json))
  | [], _ => some []
  | (key, value) :: rest, depth =>
    (reread value depth).bind fun first => (rereadFields rest depth).map ((key, first) :: ·)

end

/-! ## Scalars -/

/-- What the reader gives for the text of the value, whatever can follow it. -/
def ReadsBack (g : Char → List Char) (value : Json) : Prop :=
  ∀ depth rest, EndsValue rest → readValue depth (written g value.text ++ rest) = (reread value depth).map (·, rest)

theorem skipSpace_cons {c : Char} (dark : isSpace c = false) (cs : List Char) : skipSpace (c :: cs) = c :: cs := by
  simp [skipSpace, dark]

/-- A value that opens no bracket is a scalar. -/
theorem readValue_scalar {c : Char} (dark : isSpace c = false) (bracket : c ≠ '[') (brace : c ≠ '\x7b') (depth : Nat)
    (cs : List Char) : readValue depth (c :: cs) = readScalar (c :: cs) := by
  cases depth with
  | zero => rw [readValue, skipSpace_cons dark]
  | succ depth =>
    rw [readValue, skipSpace_cons dark]
    split
    · next same => exact absurd (List.cons.inj same).1 bracket
    · next same => exact absurd (List.cons.inj same).1 brace
    · rfl

theorem after?_append (word rest : List Char) : after? word (word ++ rest) = some rest := by
  simp [after?, List.isPrefixOf_iff_prefix]

theorem ne_of_begins {c : Char} (begins : c = '-' ∨ c.isDigit = true) (d : Char)
    (other : d ≠ '-' ∧ d.isDigit = false) : c ≠ d := by
  rintro rfl
  exact begins.elim other.1 (by simp [other.2])

theorem readScalar_number {c : Char} (begins : c = '-' ∨ c.isDigit = true) (cs : List Char) :
    readScalar (c :: cs) = (readNumber (c :: cs)).map fun (n, rest) => (.number n, rest) := by
  have other := ne_of_begins begins
  simp [readScalar, other '"' (by decide), other 'n' (by decide), other 't' (by decide), other 'f' (by decide)]

namespace Harmless
variable {g : Char → List Char} (harmless : Harmless g)
include harmless

/-- A value that is written as a word. -/
theorem readsBack_word {value : Json} {c : Char} {more : List Char} (text : value.text.toList = c :: more)
    (kept : (c :: more).all isKept = true) (dark : isSpace c = false) (bracket : c ≠ '[') (brace : c ≠ '\x7b')
    (same : ∀ depth, reread value depth = some value)
    (scalar : ∀ rest, readScalar (c :: more ++ rest) = (after? (c :: more) (c :: more ++ rest)).map fun rest => (value, rest)) :
    ReadsBack g value := by
  intro depth rest _
  rw [written, text, harmless.flatMap_of_isKept kept, same, List.cons_append, readValue_scalar dark bracket brace,
    ← List.cons_append, scalar, after?_append]
  rfl

theorem readsBack_null : ReadsBack g .null :=
  harmless.readsBack_word (c := 'n') rfl (by decide) (by decide) (by decide) (by decide) (fun _ => rfl) fun _ => rfl

theorem readsBack_bool (b : Bool) : ReadsBack g (.bool b) := by
  cases b with
  | true =>
    exact harmless.readsBack_word (c := 't') rfl (by decide) (by decide) (by decide) (by decide) (fun _ => rfl)
      fun _ => rfl
  | false =>
    exact harmless.readsBack_word (c := 'f') rfl (by decide) (by decide) (by decide) (by decide) (fun _ => rfl)
      fun _ => rfl

/-- A number is read back from its text, whatever ends it. -/
theorem readsBack_number (n : Number) : ReadsBack g (.number n) := by
  intro depth rest ends
  obtain ⟨c, more, text, begins⟩ := text_head n
  have other := ne_of_begins begins
  have dark : isSpace c = false := by
    simp [isSpace, other ' ' (by decide), other '\t' (by decide), other '\n' (by decide), other '\r' (by decide)]
  have read := readNumber_text n ends
  rw [Json.text, harmless.written_number, reread, rereadNumber]
  rw [text, List.cons_append] at read ⊢
  rw [readValue_scalar dark (other '[' (by decide)) (other '\x7b' (by decide)), readScalar_number begins, read]
  simp [Function.comp_def]

theorem readsBack_string (text : String) : ReadsBack g (.string text) := by
  intro depth rest _
  obtain ⟨inside, written, read⟩ := harmless.readString_quote text
  rw [Json.text, written, List.cons_append, readValue_scalar (by decide) (by decide) (by decide), readScalar, read rest]
  rfl

end Harmless

/-! ## Arrays and objects -/

section
variable {item : List Char → Option (Json × List Char)}

theorem readItems_of_none {cs : List Char} (read : item cs = none) (fuel : Nat) (done : List Json) :
    readItems item fuel done cs = none := by
  cases fuel with
  | zero => rfl
  | succ fuel => simp [readItems, read]

theorem readItems_comma {cs rest : List Char} {value : Json} (read : item cs = some (value, ',' :: rest)) (fuel : Nat)
    (done : List Json) : readItems item (fuel + 1) done cs = readItems item fuel (value :: done) rest := by
  rw [readItems, read]
  rfl

theorem readItems_bracket {cs rest : List Char} {value : Json} (read : item cs = some (value, ']' :: rest)) (fuel : Nat)
    (done : List Json) : readItems item (fuel + 1) done cs = some (done.reverse ++ [value], rest) := by
  rw [readItems, read, ← List.reverse_cons]
  rfl

theorem readFields_of_none {cs behind : List Char} {key : String} (isKey : readKey cs = some (key, behind))
    (read : item behind = none) (fuel : Nat) (done : List (String × Json)) : readFields item fuel done cs = none := by
  cases fuel with
  | zero => rfl
  | succ fuel => simp [readFields, isKey, read]

theorem readFields_comma {cs behind rest : List Char} {key : String} {value : Json}
    (isKey : readKey cs = some (key, behind)) (read : item behind = some (value, ',' :: rest)) (fuel : Nat)
    (done : List (String × Json)) :
    readFields item (fuel + 1) done cs = readFields item fuel ((key, value) :: done) rest := by
  rw [readFields, isKey]
  simp only [Option.bind_eq_bind, Option.bind_some, read]
  rfl

theorem readFields_brace {cs behind rest : List Char} {key : String} {value : Json}
    (isKey : readKey cs = some (key, behind)) (read : item behind = some (value, '\x7d' :: rest)) (fuel : Nat)
    (done : List (String × Json)) :
    readFields item (fuel + 1) done cs = some (done.reverse ++ [(key, value)], rest) := by
  rw [readFields, isKey, ← List.reverse_cons]
  simp only [Option.bind_eq_bind, Option.bind_some, read]
  rfl

end

/-- A bracket opens no scalar. -/
theorem readScalar_bracket {c : Char} (opens : c = '[' ∨ c = '\x7b') (cs : List Char) : readScalar (c :: cs) = none := by
  have stops : Numeral.digits (c :: cs) = ([], c :: cs) := by
    apply Numeral.digits_of_head
    rintro d ⟨rfl⟩
    obtain rfl | rfl := opens <;> rfl
  have number : readNumber (c :: cs) = none := by
    rw [readNumber_unsigned (by obtain rfl | rfl := opens <;> decide)]
    simp [readUnsigned, readWhole, stops]
  obtain rfl | rfl := opens <;> simp [readScalar, number]

theorem readValue_array {c : Char} (dark : isSpace c = false) (other : c ≠ ']') (depth : Nat) (cs : List Char) :
    readValue (depth + 1) ('[' :: c :: cs) =
      (readItems (readValue depth) (c :: cs).length [] (c :: cs)).map fun (items, rest) => (.array items, rest) := by
  rw [readValue, skipSpace_cons (by decide)]
  simp [skipSpace_cons dark, other]

theorem readValue_object {c : Char} (dark : isSpace c = false) (other : c ≠ '\x7d') (depth : Nat) (cs : List Char) :
    readValue (depth + 1) ('\x7b' :: c :: cs) =
      (readFields (readValue depth) (c :: cs).length [] (c :: cs)).map fun (fields, rest) =>
        (.object (Keyed.ofList fields), rest) := by
  rw [readValue, skipSpace_cons (by decide)]
  simp [skipSpace_cons dark, other]

theorem length_itemTexts (items : List Json) : (itemTexts items).length = items.length := by
  induction items with
  | nil => rfl
  | cons item items ih => simp [itemTexts, ih]

theorem length_fieldTexts (fields : List (String × Json)) : (fieldTexts fields).length = fields.length := by
  induction fields with
  | nil => rfl
  | cons field fields ih => simp [fieldTexts, ih]

namespace Harmless
variable {g : Char → List Char} (harmless : Harmless g)
include harmless

/-- Texts are joined by one comma between two of them. -/
theorem written_join (first second : String) (texts : List String) :
    written g (",".intercalate (first :: second :: texts)) =
      written g first ++ ',' :: written g (",".intercalate (second :: texts)) := by
  have comma : written g "," = [','] := harmless.flatMap_of_isKept (by decide)
  rw [String.intercalate_cons_cons, written_append, written_append, comma, List.append_assoc, List.singleton_append]

/-- There is room for all the texts that are joined. -/
theorem length_le_written (texts : List String) (c : Char) (rest : List Char) :
    texts.length ≤ (written g (",".intercalate texts) ++ c :: rest).length := by
  induction texts with
  | nil => simp
  | cons first texts ih =>
    cases texts with
    | nil =>
      simp only [List.length_cons, List.length_nil, List.length_append]
      omega
    | cons second texts =>
      rw [harmless.written_join]
      simp only [List.length_append, List.length_cons] at ih ⊢
      omega

/-- Items are read one by one up to the closing bracket. -/
theorem readItems_written (depth : Nat) {items : List Json} (each : ∀ v ∈ items, ReadsBack g v) (given : items ≠ [])
    (done : List Json) (rest : List Char) {fuel : Nat} (enough : items.length ≤ fuel) :
    readItems (readValue depth) fuel done (written g (",".intercalate (itemTexts items)) ++ ']' :: rest) =
      (rereadItems items depth).map fun read => (done.reverse ++ read, rest) := by
  induction items generalizing done fuel with
  | nil => exact absurd rfl given
  | cons v vs ih =>
    obtain ⟨fuel, rfl⟩ := Nat.exists_eq_succ_of_ne_zero (Nat.ne_of_gt (Nat.lt_of_lt_of_le (Nat.succ_pos _) enough))
    have first := each v (by simp) depth
    cases vs with
    | nil =>
      have last := first (']' :: rest) (.bracket rest)
      rw [itemTexts, itemTexts, String.intercalate_singleton]
      cases read : reread v depth with
      | none =>
        rw [read] at last
        simp [readItems_of_none last, rereadItems, read]
      | some value =>
        rw [read] at last
        simp [readItems_bracket last, rereadItems, read]
    | cons w ws =>
      have next := first (',' :: (written g (",".intercalate (itemTexts (w :: ws))) ++ ']' :: rest)) (.comma _)
      have others (value : Json) := ih (fun u mem => each u (by simp [mem])) (by simp) (value :: done)
        (Nat.le_of_succ_le_succ enough)
      rw [← List.cons_append, ← List.append_assoc, itemTexts, ← harmless.written_join] at next
      rw [rereadItems]
      cases read : reread v depth with
      | none =>
        rw [read] at next
        exact readItems_of_none next _ done
      | some value =>
        rw [read] at next
        refine (readItems_comma next fuel done).trans ((others value).trans ?_)
        simp [Function.comp_def]

/-- A key is read with the colon behind it. -/
theorem readKey_written (key : String) (value : Json) (rest : List Char) :
    readKey (written g (quote key ++ ":" ++ value.text) ++ rest) = some (key, written g value.text ++ rest) := by
  obtain ⟨inside, text, read⟩ := harmless.readString_quote key
  have colon : written g ":" = [':'] := harmless.flatMap_of_isKept (by decide)
  rw [written_append, written_append, text, colon, List.append_assoc, List.append_assoc, List.cons_append, readKey,
    skipSpace_cons (by decide)]
  simp only [read]
  rfl

/-- Fields are read one by one up to the closing brace. -/
theorem readFields_written (depth : Nat) {fields : List (String × Json)} (each : ∀ f ∈ fields, ReadsBack g f.2)
    (given : fields ≠ []) (done : List (String × Json)) (rest : List Char) {fuel : Nat} (enough : fields.length ≤ fuel) :
    readFields (readValue depth) fuel done (written g (",".intercalate (fieldTexts fields)) ++ '\x7d' :: rest) =
      (rereadFields fields depth).map fun read => (done.reverse ++ read, rest) := by
  induction fields generalizing done fuel with
  | nil => exact absurd rfl given
  | cons f fs ih =>
    obtain ⟨key, v⟩ := f
    obtain ⟨fuel, rfl⟩ := Nat.exists_eq_succ_of_ne_zero (Nat.ne_of_gt (Nat.lt_of_lt_of_le (Nat.succ_pos _) enough))
    have first := each (key, v) (by simp) depth
    cases fs with
    | nil =>
      have last := first ('\x7d' :: rest) (.brace rest)
      have isKey := harmless.readKey_written key v ('\x7d' :: rest)
      rw [fieldTexts, fieldTexts, String.intercalate_singleton]
      cases read : reread v depth with
      | none =>
        rw [read] at last
        simp [readFields_of_none isKey last, rereadFields, read]
      | some value =>
        rw [read] at last
        simp [readFields_brace isKey last, rereadFields, read]
    | cons e es =>
      have next := first (',' :: (written g (",".intercalate (fieldTexts (e :: es))) ++ '\x7d' :: rest)) (.comma _)
      have isKey := harmless.readKey_written key v
        (',' :: (written g (",".intercalate (fieldTexts (e :: es))) ++ '\x7d' :: rest))
      have others (value : Json) := ih (fun u mem => each u (by simp [mem])) (by simp) ((key, value) :: done)
        (Nat.le_of_succ_le_succ enough)
      rw [← List.cons_append, ← List.append_assoc, fieldTexts, ← harmless.written_join] at isKey
      rw [rereadFields]
      cases read : reread v depth with
      | none =>
        rw [read] at next
        exact readFields_of_none isKey next _ done
      | some value =>
        rw [read] at next
        refine (readFields_comma isKey next fuel done).trans ((others value).trans ?_)
        simp [Function.comp_def]

/-- No value begins with a space or a closing bracket. -/
theorem written_head (value : Json) :
    ∃ c more, written g value.text = c :: more ∧ isSpace c = false ∧ c ≠ ']' := by
  cases value with
  | null => exact ⟨'n', _, harmless.flatMap_of_isKept (by decide), by decide, by decide⟩
  | bool b =>
    cases b with
    | true => exact ⟨'t', _, harmless.flatMap_of_isKept (by decide), by decide, by decide⟩
    | false => exact ⟨'f', _, harmless.flatMap_of_isKept (by decide), by decide, by decide⟩
  | number n =>
    obtain ⟨c, more, text, begins⟩ := text_head n
    have other := ne_of_begins begins
    refine ⟨c, more, (harmless.written_number n).trans text, ?_, other ']' (by decide)⟩
    simp [isSpace, other ' ' (by decide), other '\t' (by decide), other '\n' (by decide), other '\r' (by decide)]
  | string text =>
    obtain ⟨inside, written, -⟩ := harmless.readString_quote text
    exact ⟨'"', inside, written, by decide, by decide⟩
  | array items =>
    have bracket : written g "[" = ['['] := harmless.flatMap_of_isKept (by decide)
    rw [Json.text, written_append, written_append, bracket]
    exact ⟨'[', _, rfl, by decide, by decide⟩
  | object fields =>
    have brace : written g "\x7b" = ['\x7b'] := harmless.flatMap_of_isKept (by decide)
    rw [Json.text, written_append, written_append, brace]
    exact ⟨'\x7b', _, rfl, by decide, by decide⟩

theorem head_join {first : String} {c : Char} {more : List Char} (head : written g first = c :: more)
    (texts : List String) (rest : List Char) :
    ∃ cs, written g (",".intercalate (first :: texts)) ++ rest = c :: cs := by
  cases texts with
  | nil => exact ⟨more ++ rest, by rw [String.intercalate_singleton, head, List.cons_append]⟩
  | cons second texts => exact ⟨_, by rw [harmless.written_join, head, List.cons_append, List.cons_append]⟩

/-- The step for arrays: items that are read back one by one are read back together. -/
theorem readsBack_array {items : List Json} (each : ∀ v ∈ items, ReadsBack g v) : ReadsBack g (.array items) := by
  intro depth rest _
  have left : written g "[" = ['['] := harmless.flatMap_of_isKept (by decide)
  have right : written g "]" = [']'] := harmless.flatMap_of_isKept (by decide)
  rw [Json.text, written_append, written_append, left, right, List.append_assoc, List.append_assoc,
    List.singleton_append, List.singleton_append]
  cases depth with
  | zero => exact readScalar_bracket (.inl rfl) _
  | succ depth =>
    cases items with
    | nil => rfl
    | cons v vs =>
      have room := harmless.length_le_written (itemTexts (v :: vs)) ']' rest
      obtain ⟨c, more, text, dark, other⟩ := harmless.written_head v
      obtain ⟨cs, head⟩ := harmless.head_join text (itemTexts vs) (']' :: rest)
      rw [length_itemTexts] at room
      have inside := harmless.readItems_written depth each (by simp) [] rest room
      rw [itemTexts, head] at inside ⊢
      rw [readValue_array dark other, inside, reread, Option.map_map, Option.map_map]
      rfl

/-- The step for objects: the same for the values of fields, with their keys. -/
theorem readsBack_object {fields : List (String × Json)} (each : ∀ f ∈ fields, ReadsBack g f.2) :
    ReadsBack g (.object fields) := by
  intro depth rest _
  have left : written g "\x7b" = ['\x7b'] := harmless.flatMap_of_isKept (by decide)
  have right : written g "\x7d" = ['\x7d'] := harmless.flatMap_of_isKept (by decide)
  rw [Json.text, written_append, written_append, left, right, List.append_assoc, List.append_assoc,
    List.singleton_append, List.singleton_append]
  cases depth with
  | zero => exact readScalar_bracket (.inr rfl) _
  | succ depth =>
    cases fields with
    | nil => rfl
    | cons f fs =>
      obtain ⟨key, v⟩ := f
      have room := harmless.length_le_written (fieldTexts ((key, v) :: fs)) '\x7d' rest
      obtain ⟨inner, quoted, -⟩ := harmless.readString_quote key
      have text : written g (quote key ++ ":" ++ v.text) = '"' :: (inner ++ written g ":" ++ written g v.text) := by
        rw [written_append, written_append, quoted, List.cons_append, List.cons_append]
      obtain ⟨cs, head⟩ := harmless.head_join text (fieldTexts fs) ('\x7d' :: rest)
      rw [length_fieldTexts] at room
      have inside := harmless.readFields_written depth each (by simp) [] rest room
      rw [fieldTexts, head] at inside ⊢
      rw [readValue_object (by decide) (by decide), inside, reread, Option.map_map, Option.map_map]
      rfl

end Harmless

/-! ## All values -/

mutual

/-- What the reader gives for the text of a value does not depend on how its characters are written. -/
theorem Harmless.readsBack {g : Char → List Char} (harmless : Harmless g) : (value : Json) → ReadsBack g value
  | .null => harmless.readsBack_null
  | .bool b => harmless.readsBack_bool b
  | .number n => harmless.readsBack_number n
  | .string text => harmless.readsBack_string text
  | .array items => harmless.readsBack_array (harmless.readsBack_items items)
  | .object fields => harmless.readsBack_object (harmless.readsBack_fields fields)

theorem Harmless.readsBack_items {g : Char → List Char} (harmless : Harmless g) :
    (items : List Json) → ∀ v ∈ items, ReadsBack g v
  | [] => by simp
  | item :: rest => by
    have first := harmless.readsBack item
    have others := harmless.readsBack_items rest
    simpa using ⟨first, others⟩

theorem Harmless.readsBack_fields {g : Char → List Char} (harmless : Harmless g) :
    (fields : List (String × Json)) → ∀ f ∈ fields, ReadsBack g f.2
  | [] => by simp
  | (key, value) :: rest => by
    have first := harmless.readsBack value
    have others := harmless.readsBack_fields rest
    simpa using ⟨first, fun a b => others (a, b)⟩

end

theorem Harmless.read? {g : Char → List Char} (harmless : Harmless g) {source : String} {value : Json}
    (text : source.toList = written g value.text) : Json.read? source = reread value maxDepth := by
  have read := harmless.readsBack value maxDepth [] .nil
  rw [List.append_nil] at read
  rw [Json.read?, text, read]
  cases reread value maxDepth <;> rfl

/-- A literal has none of the characters that could close the script around it or break its line, and it
is read like the plain text of the value it was made from: both give the value again, with its numbers as
the reader rounds them. -/
theorem read?_literal (value : Json) :
    Lexical.riskyChars.Disjoint value.literal.toList ∧ read? value.literal = read? value.text ∧
      read? value.text = reread value maxDepth := by
  have plain := harmless_plain.read? (written_plain value.text).symm
  have guarded : read? value.literal = reread value maxDepth :=
    harmless_guardChar.read? (written_guardChar value.text).symm
  refine ⟨?_, guarded.trans plain.symm, plain⟩
  exact (Lexical.oneLine_data value).disjoint (Markup.less_not_mem_guarded value.text)

end ScratchPage.Json
