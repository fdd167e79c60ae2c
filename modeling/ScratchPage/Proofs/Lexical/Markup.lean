import ScratchPage.Proofs.Lexical.Project
import ScratchPage.Proofs.Lexical.Texture

/-!
# Code inside a page

Generated code stands in a script element of a page, where a browser looks for markup before it looks
for code. In the code of every project each `<` is followed by a blank or by an equals sign, so none
of them begins a tag or a comment. The sign stands in fixed texts only: none of the forms in which
values stand in code has one.
-/

namespace ScratchPage
set_option autoImplicit false

open Lexical

namespace Markup

/-- Every `<` of the text is followed by a blank or by an equals sign. -/
def LessApart (text : List Char) : Prop :=
  ∀ i, text[i]? = some '<' → text[i + 1]? = some ' ' ∨ text[i + 1]? = some '='

namespace LessApart

theorem nil : LessApart [] := by
  intro i less
  simp at less

/-- The condition concerns the two characters at each place. -/
theorem cons_iff {c : Char} {rest : List Char} :
    LessApart (c :: rest) ↔
      (c = '<' → rest[0]? = some ' ' ∨ rest[0]? = some '=') ∧ LessApart rest := by
  constructor
  · intro apart
    refine ⟨fun less => ?_, fun i less => ?_⟩
    · exact apart 0 (by simp [less])
    · exact apart (i + 1) less
  · rintro ⟨first, others⟩ i less
    cases i with
    | zero => exact first (by simpa using less)
    | succ i => exact others i less

/-- The test of a text is sound. -/
theorem of_test {text : List Char} (passed : isLessApart text = true) : LessApart text := by
  induction text with
  | nil => exact nil
  | cons c rest ih =>
    simp only [isLessApart, Bool.and_eq_true, Bool.or_eq_true, bne_iff_ne, beq_iff_eq] at passed
    obtain ⟨first, others⟩ := passed
    refine cons_iff.2 ⟨fun less => ?_, ih others⟩
    rcases first with (other | blank) | equals
    · exact absurd less other
    · exact .inl blank
    · exact .inr equals

/-- A `<` is followed inside its own text, so texts can be put together. -/
theorem append {a b : List Char} (first : LessApart a) (second : LessApart b) : LessApart (a ++ b) := by
  intro i less
  by_cases inside : i < a.length
  · rw [List.getElem?_append_left inside] at less
    have follows := first i less
    have bound : i + 1 < a.length := by
      by_contra out
      have none : a[i + 1]? = none := List.getElem?_eq_none (by omega)
      simp [none] at follows
    rwa [List.getElem?_append_left bound]
  · have beyond : a.length ≤ i := by omega
    rw [List.getElem?_append_right beyond] at less
    have shifted : i + 1 - a.length = i - a.length + 1 := by omega
    rw [List.getElem?_append_right (by omega), shifted]
    exact second _ less

theorem of_not_mem {text : List Char} (absent : '<' ∉ text) : LessApart text := by
  intro i less
  exact absurd (List.mem_of_getElem? less) absent

/-- The text holds nothing that begins like markup. -/
theorem not_infix {text rest : List Char} (apart : LessApart text) {c : Char} (blank : c ≠ ' ')
    (equals : c ≠ '=') : ¬ ('<' :: c :: rest) <:+: text := by
  rintro ⟨before, after, rfl⟩
  have follows := apart before.length (by simp)
  have next : (before ++ '<' :: c :: rest ++ after)[before.length + 1]? = some c := by
    rw [List.append_assoc, List.getElem?_append_right (by omega)]
    simp
  rw [next] at follows
  simp [blank, equals] at follows

end LessApart

/-! ## Values -/

/-- The less-than signs of quoted texts are escaped. -/
theorem less_not_mem_quoted (text : String) : '<' ∉ (Text.quoted text).toList := by
  have escaped : ∀ c, '<' ∉ Text.escapeChar c := by
    intro c
    unfold Text.escapeChar
    split_ifs with backslash quote feed ret ls ps less
    any_goals decide
    simpa [eq_comm] using less
  rw [quoted_toList]
  simp only [List.cons_append, List.mem_cons, List.mem_append, List.mem_flatMap, List.not_mem_nil, or_false,
    not_or, not_exists, not_and]
  exact ⟨by decide, fun c _ => escaped c, by decide⟩

/-- The less-than signs of guarded texts are escaped. -/
theorem less_not_mem_guarded (text : String) : '<' ∉ (Text.guarded text).toList := by
  have guarded : ∀ c, '<' ∉ Text.guardChar c := by
    intro c
    unfold Text.guardChar
    split_ifs with less ls ps
    any_goals decide
    simpa [eq_comm] using less
  simp only [Text.guarded, String.toList_ofList, List.mem_flatMap, not_exists, not_and]
  exact fun c _ => guarded c

theorem less_not_mem_commentText (text : String) : '<' ∉ (Text.commentText text).toList := by
  simp only [Text.commentText, String.toList_ofList, List.mem_map, not_exists, not_and]
  intro c _
  split_ifs with allowed
  · rintro rfl
    exact absurd allowed (by decide)
  · decide

theorem less_not_mem_numeral {text : List Char} (numeral : IsNumeral text) : '<' ∉ text := by
  intro mem
  rcases numeral.chars _ mem with digit | listed
  · exact absurd digit (by decide)
  · exact absurd listed (by decide)

/-- There is no less-than sign in a number. -/
theorem less_not_mem_number (f : Float) : '<' ∉ (numberLiteral f).toList := by
  unfold numberLiteral
  split_ifs with nan infinite negative
  · decide
  · decide
  · decide
  · have digits := less_not_mem_numeral (isNumeral_plain (Decimal.shortest .up f))
    rw [Decimal.signed, String.toList_ofList]
    split_ifs
    · simpa using digits
    · exact digits

theorem less_not_mem_integer (i : Int) : '<' ∉ (Json.intText i).toList := by
  have digits := less_not_mem_numeral (isNumeral_digitChars i.natAbs)
  rw [Json.intText, String.toList_ofList]
  split_ifs
  · simpa using digits
  · exact digits

/-! ## Code -/

/-- The characters of the code are free of markup. -/
structure Quiet (code : Code) : Prop where
  apart : LessApart code.text.toList

namespace Quiet

theorem fixed {text : List Char} (passed : isLessApart text = true) :
    Quiet [.fixed (String.ofList text)] := by
  constructor
  simpa [Code.text, Fragment.text] using LessApart.of_test passed

theorem of_absent {fragment : Fragment} (absent : '<' ∉ fragment.text.toList) : Quiet [fragment] := by
  constructor
  simpa [Code.text] using LessApart.of_not_mem absent

end Quiet

/-- No value and no ordinary text is markup, and neither is the sign of an operator before its blank. -/
theorem texture_quiet : Texture Quiet where
  append first second := by
    constructor
    rw [Code.text_append, String.toList_append]
    exact first.apart.append second.apart
  fixed ordinary := by
    simp only [isOrdinary, Bool.and_eq_true] at ordinary
    exact .fixed ordinary.1.2
  sign op := by
    constructor
    cases op <;> exact LessApart.of_test (by decide)
  quoted text := .of_absent (less_not_mem_quoted text)
  number value := .of_absent (less_not_mem_number value)
  integer value := .of_absent (less_not_mem_integer value)
  data value := .of_absent (less_not_mem_guarded value.text)
  comment text := .of_absent (by simp [Fragment.text, less_not_mem_commentText text])

/-- The lines of a target are free of markup. -/
theorem quiet_descriptor (d : Descriptor) :
    AllHold (Line.Holds Quiet) (d.headLines ++ d.scriptLines ++ d.tailLines) := by
  have table : ∀ text ∈ tableTexts, Quiet [.fixed text] := by
    simp only [tableTexts, List.forall_mem_cons]
    exact ⟨.fixed rfl, .fixed rfl, by simp⟩
  apply texture_quiet.weave.descriptor
  · simp only [chainTexts, screenRefresh, List.forall_mem_cons]
    exact ⟨.fixed rfl, .fixed rfl, .fixed rfl, .fixed rfl, by simp⟩
  · intro script _
    cases script <;> simp only [scriptTexts, List.mem_singleton, forall_eq] <;> exact .fixed rfl
  · intro script _ name _
    exact texture_quiet.append (texture_quiet.append (.fixed rfl) (texture_quiet.quoted name)) (.fixed rfl)
  · exact fun _ _ code _ => (texture_quiet.tableLines table code).1
  · exact fun _ _ code _ => (texture_quiet.tableLines table code).2

/-! ## Written code -/

/-- Between lines there is a line break, so that the condition holds across them. -/
theorem lessApart_put {w : Writer} {text : String} (before : LessApart w.text.toList)
    (line : LessApart text.toList) : LessApart (w.put text).text.toList := by
  have blanks : LessApart (Writer.indentation w.level).toList := by
    refine .of_not_mem fun less => ?_
    simp [Writer.indentation] at less
  have ends : LessApart ['\n'] := .of_test rfl
  have whole := ((before.append (blanks.append line)).append ends)
  simpa [Writer.put_text] using whole

/-- The step for lines. -/
theorem lessApart_write {w : Writer} {line : Line} (before : LessApart w.text.toList) (quiet : Line.Holds Quiet line) :
    LessApart (w.write line).text.toList := by
  cases line with
  | plain code => exact lessApart_put before quiet.apart
  | opening code => exact lessApart_put before quiet.apart
  | closing code => exact lessApart_put (w := w.outdent) before quiet.apart
  | switching code => exact lessApart_put (w := w.outdent) before quiet.apart
  | remark text =>
    have remark : LessApart ("// " ++ Text.commentText text).toList := by
      rw [String.toList_append]
      exact (LessApart.of_not_mem (by decide)).append (.of_not_mem (less_not_mem_commentText text))
    exact lessApart_put before remark

/-- Lines that are free of markup are written as text that is. -/
theorem lessApart_writeAll {w : Writer} {lines : List Line} (before : LessApart w.text.toList)
    (quiet : AllHold (Line.Holds Quiet) lines) : LessApart (w.writeAll lines).text.toList := by
  induction lines generalizing w with
  | nil => exact before
  | cons line lines ih =>
    rw [allHold_cons] at quiet
    exact ih (lessApart_write before quiet.1) quiet.2

/-- The run over the descriptors of a project. -/
theorem lessApart_descriptors (descriptors : List Descriptor) :
    LessApart (String.join (descriptors.map Descriptor.code)).toList := by
  induction descriptors with
  | nil => exact .nil
  | cons d rest ih =>
    have first : LessApart d.code.toList := lessApart_writeAll .nil (quiet_descriptor d)
    rw [List.map_cons, String.join_cons, String.toList_append]
    exact first.append ih

/-- In the code of every project, each `<` is followed by a blank or by an equals sign. So the code holds
no closing tag, no opening of a comment and no opening of a script, whatever texts and values the
project has. -/
theorem compile_lessApart (project : Project) (code : String) (compiled : project.compile.result = .ok code) :
    LessApart code.toList ∧ ¬ "</".toList <:+: code.toList ∧ ¬ "<!--".toList <:+: code.toList ∧
      ¬ "<script".toList <:+: code.toList := by
  obtain ⟨descriptors, -, same⟩ := Outcome.bind_eq_ok.1 compiled
  obtain rfl : String.join (descriptors.map Descriptor.code) = code := by simpa using same
  have apart := lessApart_descriptors descriptors
  exact ⟨apart, apart.not_infix (by decide) (by decide), apart.not_infix (by decide) (by decide),
    apart.not_infix (by decide) (by decide)⟩

/-- A stage whose name, variable, message, opcode, list and texts are markup, with two comparisons. -/
def markupTexts : Json :=
  .object [("targets", .array [.object
    [("blocks", .object
      [("hat", Lexical.blockJson "event_whenbroadcastreceived"
        [("fields", .object [("BROADCAST_OPTION", .array [.string "<script", .null])]),
         ("next", .string "odd"), ("topLevel", .bool true)]),
       ("less", Lexical.blockJson "operator_lt"
        [("inputs", .object
          [("OPERAND1", .array [.number (.int 1), .array [.number (.int 10), .string "<b>"]]),
           ("OPERAND2", .array [.number (.int 1), .array [.number (.int 9), .string "</b>"]])])]),
       ("odd", Lexical.blockJson "<!--" [("next", .string "until")]),
       ("remove", Lexical.blockJson "data_deleteoflist"
        [("fields", .object [("LIST", .array [.string "</", .null])])]),
       ("until", Lexical.blockJson "control_repeat_until"
        [("inputs", .object
          [("CONDITION", .array [.number (.int 2), .string "less"]),
           ("SUBSTACK", .array [.number (.int 2), .string "remove"])])])]),
     ("isStage", .bool true), ("name", .string "</script>"),
     ("variables", .object [("<!--", .array [.string "v", .array [.string "<script>"]])])]])]

theorem compile_lessApart_markup :
    ∃ project code, Project.ofJson markupTexts = .ok project ∧ project.compile.result = .ok code ∧
      LessApart code.toList ∧ ¬ "</".toList <:+: code.toList := by
  have compiles : Lexical.compilesTo markupTexts (fun _ => true) = true := by decide +kernel
  obtain ⟨project, code, read, compiled, -⟩ := Lexical.exists_of_compilesTo compiles
  have apart := compile_lessApart project code compiled
  exact ⟨project, code, read, compiled, apart.1, apart.2.1⟩

end Markup

end ScratchPage
