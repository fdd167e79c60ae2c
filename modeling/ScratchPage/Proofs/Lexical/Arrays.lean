import ScratchPage.Code.Script
import ScratchPage.Proofs.Json.Scalars
import ScratchPage.Proofs.Lexical.Integrity

/-!
# Strings and arrays at run time

What the literals in code stand for when it runs. The content of a string is read character by
character, with its escapes (`stringValue`): a text stands for itself both as a quoted text and as a
string in data. The elements of an array are what stands between the commas outside its inner brackets
(`elementsOf`), so an array that is written operand by operand has these operands as elements, and an
array of texts stands for these texts (`tokens_textArray`).
-/

namespace ScratchPage.Lexical
set_option autoImplicit false

/-! ## Strings -/

/-- Where a reader is in the content of a string. -/
inductive Spot where
  | plain
  /-- After a backslash. -/
  | escape
  /-- In the code of a character, with the number of digits to come and the value of those before. -/
  | code (left value : Nat)
deriving DecidableEq, Repr

/-- The character that a letter stands for after a backslash. -/
def unescape (c : Char) : Char :=
  if c = 'n' then '\n'
  else if c = 'r' then '\r'
  else if c = 't' then '\t'
  else if c = 'b' then '\x08'
  else if c = 'f' then '\x0c'
  else if c = 'v' then '\x0b'
  else c

/-- Reads a character of a string: the characters that are complete, and where the reader is then. -/
def decodeStep : Spot → Char → Option (List Char × Spot)
  | .plain, c => if c = '\\' then some ([], .escape) else some ([c], .plain)
  | .escape, c =>
    if c = 'x' then some ([], .code 2 0)
    else if c = 'u' then some ([], .code 4 0)
    else if c.isDigit then none
    else some ([unescape c], .plain)
  | .code left value, c =>
    (Json.hexValue? c).bind fun digit =>
      let next := value * 16 + digit
      if 1 < left then some ([], .code (left - 1) next)
      else if next < 0xD800 ∨ 0xDFFF < next then some ([Char.ofNat next], .plain)
      else none

/-- Reads characters of a string. -/
def decode : Spot → List Char → Option (List Char × Spot)
  | spot, [] => some ([], spot)
  | spot, c :: rest =>
    (decodeStep spot c).bind fun first =>
      (decode first.2 rest).map fun last => (first.1 ++ last.1, last.2)

/-- The text that a string stands for, from its content as it is written. -/
def stringValue (content : List Char) : Option String :=
  match decode .plain content with
  | some (text, .plain) => some (String.ofList text)
  | _ => none

/-- A decoder goes on where it has stopped. -/
theorem decode_append (spot : Spot) (a b : List Char) :
    decode spot (a ++ b) = (decode spot a).bind fun first =>
      (decode first.2 b).map fun last => (first.1 ++ last.1, last.2) := by
  induction a generalizing spot with
  | nil => simp [decode]
  | cons c a ih =>
    simp only [List.cons_append, decode, ih]
    cases decodeStep spot c with
    | none => rfl
    | some first =>
      simp only [Option.bind_some]
      cases decode first.2 a with
      | none => rfl
      | some middle => simp [Function.comp_def]

/-- What is written stands for the text, wherever it stands in a string. -/
def Means (written text : List Char) : Prop := decode .plain written = some (text, .plain)

namespace Means

theorem append {a b x y : List Char} (first : Means a x) (second : Means b y) : Means (a ++ b) (x ++ y) := by
  rw [Means, decode_append, first, Option.bind_some, second, Option.map_some]

theorem flatMap {f : Char → List Char} (each : ∀ c, Means (f c) [c]) (text : List Char) :
    Means (text.flatMap f) text := by
  induction text with
  | nil => rfl
  | cons c text ih => exact (each c).append ih

theorem plain {c : Char} (other : c ≠ '\\') : Means [c] [c] := by
  simp [Means, decode, decodeStep, other]

theorem stringValue {written : List Char} {text : String} (means : Means written text.toList) :
    stringValue written = some text := by
  simp [Lexical.stringValue, show decode .plain written = _ from means]

end Means

theorem means_escapeChar (c : Char) : Means (Text.escapeChar c) [c] := by
  unfold Text.escapeChar
  split_ifs with backslash quote feed ret ls ps less
  case neg => exact .plain backslash
  all_goals
    subst c
    rfl

/-- A text as it is written in a string of data. -/
def dataContent (text : String) : List Char :=
  text.toList.flatMap fun c => (Json.escapeChar c).flatMap Text.guardChar

/-- The code of a control character. -/
theorem means_code {c : Char} (control : c.toNat < 0x20) :
    Means ['\\', 'u', '0', '0', Json.hexDigit (c.toNat / 16), Json.hexDigit (c.toNat % 16)] [c] := by
  have high := Json.hexValue?_hexDigit (c.toNat / 16) (by omega)
  have low := Json.hexValue?_hexDigit (c.toNat % 16) (by omega)
  have zero : Json.hexValue? '0' = some 0 := by decide
  have whole : c.toNat / 16 * 16 + c.toNat % 16 = c.toNat := by omega
  have small : c.toNat < 0xD800 ∨ 0xDFFF < c.toNat := by omega
  simp [Means, decode, decodeStep, zero, high, low, whole, small]

/-- The two escapes of a character, that for data and that for markup, are undone together. -/
theorem means_guarded (c : Char) : Means ((Json.escapeChar c).flatMap Text.guardChar) [c] := by
  unfold Json.escapeChar
  split_ifs with quote backslash feed ret tab back form control
  · subst quote
    rfl
  · subst backslash
    rfl
  · subst feed
    rfl
  · subst ret
    rfl
  · subst tab
    rfl
  · obtain rfl : c = '\x08' := Char.toNat_inj.1 back
    rfl
  · obtain rfl : c = '\x0c' := Char.toNat_inj.1 form
    rfl
  · have high := hexDigit_plain (c.toNat / 16) (by omega)
    have low := hexDigit_plain (c.toNat % 16) (by omega)
    simp only [List.flatMap_cons, List.flatMap_nil, high.1, low.1]
    exact means_code control
  · rw [List.flatMap_singleton]
    unfold Text.guardChar
    split_ifs with less ls ps
    · subst less
      rfl
    · subst ls
      rfl
    · subst ps
      rfl
    · exact .plain backslash

/-- A quoted text stands for itself. -/
theorem stringValue_quoted (text : String) : stringValue (text.toList.flatMap Text.escapeChar) = some text :=
  (Means.flatMap means_escapeChar text.toList).stringValue

/-- A text in data stands for itself. -/
theorem stringValue_data (text : String) : stringValue (dataContent text) = some text :=
  (Means.flatMap means_guarded text.toList).stringValue

/-! ## Arrays -/

/-- The elements of an array, given the brackets that are open and the tokens of the element so far. A
comma at the end adds no element. -/
def elements : List Bracket → List Token → List Token → Option (List (List Token))
  | [], [], [] => some []
  | [], element, [] => some [element]
  | _ :: _, _, [] => none
  | opened, element, token :: rest =>
    if opened = [] ∧ token = .sign [','] then (elements [] [] rest).map (element :: ·)
    else (nest opened token).bind fun next => elements next (element ++ [token]) rest

/-- The elements of an array, from the tokens between its brackets. -/
def elementsOf (inner : List Token) : Option (List (List Token)) := elements [] [] inner

/-- The text that an element stands for, if it is a string. -/
def textOf : List Token → Option String
  | [.string content] => stringValue content
  | _ => none

/-- The texts that an array stands for, from the tokens between its brackets. -/
def textsOf (inner : List Token) : Option (List String) := (elementsOf inner).bind fun found => found.mapM textOf

/-- A token that an operand goes on with ends no element. -/
theorem elements_see {s next : Outline} {token : Token} (seen : s.see token = some next)
    (element rest : List Token) :
    elements s.opened element (token :: rest) = elements next.opened (element ++ [token]) rest := by
  have inner : ¬ (s.opened = [] ∧ token = .sign [',']) := by
    rintro ⟨closed, rfl⟩
    obtain ⟨stage, opened⟩ := s
    obtain rfl : opened = [] := closed
    cases stage <;> cases seen
  have nested := Outline.nest_of_see seen
  rw [elements.eq_def]
  simp [inner, nested]

/-- An operand is no more than a part of one element. -/
theorem elements_feed {s next : Outline} {own : List Token} (fed : feed Outline.see s own = some next)
    (element rest : List Token) :
    elements s.opened element (own ++ rest) = elements next.opened (element ++ own) rest := by
  induction own generalizing s element with
  | nil =>
    cases fed
    rw [List.nil_append, List.append_nil]
  | cons token own ih =>
    obtain ⟨middle, here, there⟩ := Option.bind_eq_some_iff.1 fed
    rw [List.cons_append, elements_see here, ih there, List.append_assoc, List.singleton_append]

/-- The tokens of one operand. -/
def IsOperand (own : List Token) : Prop := feed Outline.see .start own = some .done

theorem elementsOf_cons {own : List Token} (operand : IsOperand own) (rest : List Token) :
    elementsOf (own ++ .sign [','] :: rest) = (elementsOf rest).map (own :: ·) := by
  have first : elements [] [] (own ++ .sign [','] :: rest) = elements [] own (.sign [','] :: rest) :=
    elements_feed operand [] _
  rw [elementsOf, first, elements]
  simp [elementsOf]

/-- Operands with a comma after each of them. -/
theorem elementsOf_flatMap {items : List (List Token)} (each : ∀ own ∈ items, IsOperand own) :
    elementsOf (items.flatMap fun own => own ++ [.sign [',']]) = some items := by
  induction items with
  | nil => rfl
  | cons own items ih =>
    rw [List.flatMap_cons, List.append_assoc, List.singleton_append, elementsOf_cons (each own (by simp)),
      ih fun other mem => each other (by simp [mem])]
    rfl

theorem elementsOf_singleton {own : List Token} (operand : IsOperand own) : elementsOf own = some [own] := by
  have whole : elements [] [] (own ++ []) = elements [] own [] := elements_feed operand [] []
  rw [elementsOf, ← List.append_nil own, whole]
  cases own with
  | nil => cases operand
  | cons token own => simp [elements]

/-- Operands with commas between them. -/
theorem elementsOf_intercalate {items : List (List Token)} (each : ∀ own ∈ items, IsOperand own) :
    elementsOf ([.sign [',']].intercalate items) = some items := by
  induction items with
  | nil => rfl
  | cons own items ih =>
    have operand := each own (by simp)
    cases items with
    | nil => simpa using elementsOf_singleton operand
    | cons next items =>
      rw [List.intercalate_cons_cons, List.append_assoc, List.singleton_append, elementsOf_cons operand,
        ih fun other mem => each other (by simp [mem])]
      rfl

/-! ## Arrays of texts -/

/-- The tokens between the brackets of an array of texts. -/
def textElements (texts : List String) : List Token :=
  [.sign [',']].intercalate (texts.map fun text => [.string (dataContent text)])

/-- The texts of an array are read back from its elements. -/
theorem textsOf_textElements (texts : List String) : textsOf (textElements texts) = some texts := by
  have each : ∀ own ∈ texts.map fun text => [Token.string (dataContent text)], IsOperand own := by
    intro own mem
    obtain ⟨text, -, rfl⟩ := List.mem_map.1 mem
    rfl
  have values : (textOf ∘ fun text => [.string (dataContent text)]) = fun text => pure (id text) := by
    funext text
    exact stringValue_data text
  rw [textsOf, textElements, elementsOf_intercalate each, Option.bind_some, List.mapM_map, values,
    List.mapM_pure, List.map_id]
  rfl

/-- Strings with commas between them are read one by one, whatever boundary follows. -/
theorem run_textElements (texts : List String) {c : Char} (boundary : isBoundary c = true) (rest : List Char) :
    run .idle ((Text.guarded (",".intercalate (texts.map Json.quote))).toList ++ c :: rest) =
      (run .idle (c :: rest)).map fun last => (textElements texts ++ last.1, last.2) := by
  induction texts with
  | nil => simp [textElements, Text.guarded]
  | cons text texts ih =>
    have reads : Reads (Text.guarded (Json.quote text)).toList [.string (dataContent text)] := by
      rw [guarded_quote]
      exact ⟨_, _, (inString_guardedText text).run_quoted, rfl, rfl⟩
    cases texts with
    | nil => simpa [textElements] using reads.run_append boundary rest
    | cons next texts =>
      have comma : (Text.guarded ",").toList = [','] := by decide
      obtain ⟨d, tail, more⟩ : ∃ d tail,
          (Text.guarded (",".intercalate ((next :: texts).map Json.quote))).toList ++ c :: rest = d :: tail :=
        List.exists_cons_of_ne_nil (by simp)
      rw [List.map_cons, List.map_cons, String.intercalate_cons_cons, guarded_append, guarded_append, comma,
        List.append_assoc, List.append_assoc, List.singleton_append, reads.run_append (by decide),
        ← List.map_cons, more, run_separator (.inl rfl), ← more, ih]
      simp [textElements, Function.comp_def]

theorem itemTexts_string (texts : List String) : Json.itemTexts (texts.map Json.string) = texts.map Json.quote := by
  induction texts with
  | nil => rfl
  | cons text texts ih => simp [Json.itemTexts, Json.text, ih]

/-- An array of texts has these texts as its elements. -/
theorem tokens_textArray (texts : List String) :
    Code.tokens (Script.textArray texts) = .opening .square :: textElements texts ++ [.closing .square] := by
  have left : (Text.guarded "[").toList = ['['] := by decide
  have right : (Text.guarded "]").toList = [']'] := by decide
  have chars : (Fragment.data (.array (texts.map Json.string))).chars =
      '[' :: ((Text.guarded (",".intercalate (texts.map Json.quote))).toList ++ [']']) := by
    rw [Fragment.chars, Fragment.text, Json.literal, Json.text, itemTexts_string, guarded_append, guarded_append,
      left, right]
    rfl
  have opens : step .idle '[' = some ([.opening .square], .idle) := rfl
  have read := run_textElements texts (c := ']') (by decide) []
  have reads : Reads (Fragment.data (.array (texts.map Json.string))).chars
      (.opening .square :: textElements texts ++ [.closing .square]) := by
    refine ⟨_, .idle, ?_, rfl, List.append_nil _⟩
    rw [chars, run_cons, opens, Option.bind_some, read]
    rfl
  exact (Code.tokens_singleton _).trans reads.tokens

end ScratchPage.Lexical
