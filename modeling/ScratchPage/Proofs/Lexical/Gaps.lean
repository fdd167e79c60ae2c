import Mathlib.Algebra.Ring.Nat
import ScratchPage.Proofs.Lexical.Loops

/-!
# Gaps in code

What a block without code leaves in the text of a target: a comment, or a pair of braces with nothing
between them. Both can be counted in the finished code, and there is exactly one of them for each gap
among the marks of the scripts (`gaps_descriptor`).
-/

namespace ScratchPage
set_option autoImplicit false

def Fragment.isComment : Fragment → Bool
  | .comment _ => true
  | _ => false

/-- The number of comments in a line. -/
def Line.comments : Line → Nat
  | .plain code => code.countP Fragment.isComment
  | .opening code => code.countP Fragment.isComment
  | .closing code => code.countP Fragment.isComment
  | .switching code => code.countP Fragment.isComment
  | .remark _ => 1

namespace Lexical

/-- The line is an opening brace and nothing else. -/
def Row.opensBlock (row : Row) : Bool := row.tokens == [.opening .curly]

/-- The line is a closing brace and nothing else. -/
def Row.closesBlock (row : Row) : Bool := row.tokens == [.closing .curly]

/-- The number of blocks with nothing between their braces. -/
def emptyBlocks (rows : List Row) : Nat :=
  (rows.zip rows.tail).countP fun (first, second) => first.opensBlock && second.closesBlock

/-! ## Comments -/

/-- There is no comment in a value. -/
theorem IsValue.not_comment {inGroup : Bool} {ts : List Token} (value : IsValue inGroup ts) : .comment ∉ ts := by
  induction value with
  | nil | comma => simp
  | plain plain =>
    intro mem
    rw [List.mem_singleton] at mem
    subst mem
    cases plain
  | append _ _ first second => simp [first, second]
  | group bracket _ inside => simp [inside]

/-- The comments among the tokens of code are its comments. -/
def Shown (code : Code) : Prop := code.tokens.count .comment = code.countP Fragment.isComment

theorem shown_of_value {fragment : Fragment} (value : ValueText fragment.chars)
    (other : fragment.isComment = false) : Shown [fragment] := by
  obtain ⟨ts, reads, isValue⟩ := value.reads
  rw [Shown, Code.tokens_singleton, reads.tokens, List.count_eq_zero.2 (isValue true).not_comment]
  simp [other]

theorem shown_append {a b : Code} (first : Shown a) (second : Shown b) : Shown (a ++ b) := by
  rw [Shown, Code.tokens_append, List.count_append, first, second, List.countP_append]

theorem shown_fixed {text : List Char} (none : ((tokensOf text).getD []).contains .comment = false) :
    Shown [.fixed (String.ofList text)] := by
  have absent : .comment ∉ (tokensOf text).getD [] := by simpa using none
  rw [Shown, Code.tokens_singleton, Fragment.tokens_fixed, List.count_eq_zero.2 absent]
  rfl

/-- In all code the comments are those that are written as such. -/
theorem texture_shown : Texture Shown where
  append := shown_append
  fixed := by
    intro text ordinary
    rw [Shown, Code.tokens_singleton, Fragment.tokens_fixed]
    simp only [isOrdinary, Bool.and_eq_true] at ordinary
    revert ordinary
    cases tokensOf text with
    | none => simp
    | some ts =>
      rintro ⟨-, plain⟩
      rw [Bool.not_eq_true', List.any_eq_false] at plain
      have absent : .comment ∉ ts := fun mem => plain _ mem rfl
      simpa [Fragment.isComment] using List.count_eq_zero.2 absent
  sign op := shown_append (shown_append (shown_fixed rfl) (by cases op <;> exact shown_fixed rfl)) (shown_fixed rfl)
  quoted text := shown_of_value (valueText_quoted text) rfl
  number value := shown_of_value (valueText_number value) rfl
  integer value := shown_of_value (valueText_integer value) rfl
  data value := shown_of_value (valueText_data value) rfl
  comment text := by simp [Shown, Code.comment, tokens_comment, Fragment.isComment]

theorem comments_of_holds {line : Line} (holds : Line.Holds Shown line) :
    line.tokens.count .comment = line.comments := by
  cases line with
  | plain _ | opening _ | closing _ | switching _ => exact holds
  | remark _ => rfl

theorem count_comments {lines : List Line} (hold : AllHold (Line.Holds Shown) lines) :
    (lines.flatMap Line.tokens).count .comment = (lines.map Line.comments).sum := by
  induction lines with
  | nil => rfl
  | cons line lines ih =>
    rw [allHold_cons] at hold
    rw [List.flatMap_cons, List.count_append, comments_of_holds hold.1, ih hold.2, List.map_cons, List.sum_cons]

/-- An operand has a comment for each of its gaps. -/
theorem operand_comments (operand : Operand) :
    operand.code.countP Fragment.isComment = operand.marks.count .gap := by
  induction operand with
  | missing opcode => rfl
  | _ =>
    simp_all [Operand.code, Operand.marks, Operand.listCode, Operand.randomFunction, Code.quoted, Code.number,
      Fragment.isComment]

theorem arguments_comments (arguments : List Operand) :
    ((arguments.map fun a => Line.plain (a.code ++ ",")).map Line.comments).sum =
      (arguments.flatMap Operand.marks).count .gap := by
  induction arguments with
  | nil => rfl
  | cons a arguments ih =>
    simp only [List.map_cons, List.sum_cons, ih, List.flatMap_cons, List.count_append]
    simp [Line.comments, operand_comments, Fragment.isComment]

/-- An action other than the empty one has a comment for each of its gaps. -/
theorem action_comments {act : Action} (other : act ≠ .nothing) :
    (act.lines.map Line.comments).sum = act.marks.count .gap := by
  cases act with
  | nothing => exact absurd rfl other
  | call code arguments =>
    simp only [Action.lines, Action.guarded, List.map_append, List.sum_append, arguments_comments]
    simp [Line.comments, Code.quoted, Fragment.isComment, Action.marks, Action.operands]
  | _ =>
    simp [Action.lines, Action.guarded, Action.listPlace, Operand.listCode, Line.comments, Code.quoted,
      Fragment.isComment, Action.marks, Action.operands, operand_comments]

/-! ## Braces with nothing between them -/

@[simp] theorem emptyBlocks_nil : emptyBlocks [] = 0 := rfl

@[simp] theorem emptyBlocks_singleton (row : Row) : emptyBlocks [row] = 0 := rfl

theorem emptyBlocks_cons_cons (first second : Row) (rest : List Row) :
    emptyBlocks (first :: second :: rest) =
      emptyBlocks (second :: rest) + (first.opensBlock && second.closesBlock).toNat := by
  simp only [emptyBlocks, List.tail_cons, List.zip_cons_cons, List.countP_cons]
  cases first.opensBlock && second.closesBlock <;> rfl

/-- A block with nothing in it is counted. -/
theorem emptyBlocks_pos {before after : List Row} {first second : Row} (opens : first.opensBlock = true)
    (closes : second.closesBlock = true) : 0 < emptyBlocks (before ++ first :: second :: after) := by
  induction before with
  | nil => simp [emptyBlocks_cons_cons, opens, closes]
  | cons row before ih =>
    obtain ⟨next, rest, eq⟩ : ∃ next rest, before ++ first :: second :: after = next :: rest :=
      List.exists_cons_of_ne_nil (by simp)
    rw [eq] at ih
    rw [List.cons_append, eq, emptyBlocks_cons_cons]
    omega

/-- Neither the first line of the rows ends a block nor does the last one begin one. -/
structure Sealed (rows : List Row) : Prop where
  first : rows.head?.any Row.closesBlock = false
  last : rows.getLast?.any Row.opensBlock = false

/-- Where no block is begun at the seam, empty blocks are counted on both sides. -/
theorem emptyBlocks_append {a : List Row} (last : a.getLast?.any Row.opensBlock = false) (b : List Row) :
    emptyBlocks (a ++ b) = emptyBlocks a + emptyBlocks b := by
  induction a with
  | nil => simp
  | cons row a ih =>
    cases a with
    | nil =>
      have other : row.opensBlock = false := by simpa using last
      cases b with
      | nil => simp
      | cons second b => simp [emptyBlocks_cons_cons, other]
    | cons second a =>
      have later := ih (by simpa using last)
      rw [List.cons_append, List.cons_append, emptyBlocks_cons_cons, emptyBlocks_cons_cons, ← List.cons_append, later]
      omega

/-- Sealed rows can be joined. -/
theorem Sealed.append {a b : List Row} (first : Sealed a) (second : Sealed b) : Sealed (a ++ b) := by
  cases b with
  | nil => simpa using first
  | cons row b =>
    constructor
    · cases a with
      | nil => simpa using second.first
      | cons => simpa using first.first
    · rw [List.getLast?_append_of_ne_nil _ (by simp)]
      exact second.last

/-- The lines have a comment or an empty block for each of a number of gaps. -/
structure Gapped (lines : List Line) (gaps : Nat) : Prop where
  isSealed : Sealed (lines.map rowOf)
  total : emptyBlocks (lines.map rowOf) + (lines.map Line.comments).sum = gaps

namespace Gapped

theorem nil : Gapped [] 0 := ⟨⟨rfl, rfl⟩, rfl⟩

theorem count_eq {lines : List Line} {m n : Nat} (gapped : Gapped lines m) (same : m = n) : Gapped lines n :=
  same ▸ gapped

/-- The gaps of lines add up. -/
theorem append {a b : List Line} {m n : Nat} (first : Gapped a m) (second : Gapped b n) : Gapped (a ++ b) (m + n) where
  isSealed := by
    rw [List.map_append]
    exact first.isSealed.append second.isSealed
  total := by
    have left := first.total
    have right := second.total
    rw [List.map_append, List.map_append, List.sum_append, emptyBlocks_append first.isSealed.last]
    omega

end Gapped

/-- A line with a closing brace and nothing else. -/
theorem rowOf_brace : rowOf (.closing "\x7d") = Row.ofLine ['\x7d'] := (rowOf_fixed _).2.2.1

/-- Lines with a closing brace after them. -/
theorem Gapped.closed {lines : List Line} {n : Nat} (gapped : Gapped lines n) (filled : lines ≠ []) :
    Gapped (lines ++ [.closing "\x7d"]) n where
  isSealed := by
    obtain ⟨line, lines, rfl⟩ := List.exists_cons_of_ne_nil filled
    refine ⟨gapped.isSealed.first, ?_⟩
    rw [List.map_append, List.getLast?_append_of_ne_nil _ (by simp), List.map_singleton, rowOf_brace]
    rfl
  total := by
    have same := gapped.total
    rw [List.map_append, List.map_append, List.sum_append, emptyBlocks_append gapped.isSealed.last]
    simpa [Line.comments, Fragment.isComment] using same

theorem rowOf_openBrace : rowOf (.opening "\x7b") = Row.ofLine ['\x7b'] := (rowOf_fixed _).2.1

/-- A block with something between its braces has the gaps of what is between them. -/
theorem Gapped.inBraces {lines : List Line} {n : Nat} (gapped : Gapped lines n) (filled : lines ≠ []) :
    Gapped (Statement.inBraces lines) n := by
  have closed := gapped.closed filled
  have split : Statement.inBraces lines = .opening "\x7b" :: (lines ++ [.closing "\x7d"]) := by
    simp [Statement.inBraces]
  obtain ⟨line, rest, rfl⟩ := List.exists_cons_of_ne_nil filled
  have inner : (rowOf line).closesBlock = false := by simpa using gapped.isSealed.first
  rw [split]
  constructor
  · constructor
    · rw [List.map_cons, rowOf_openBrace]
      rfl
    · simpa using closed.isSealed.last
  · have same := closed.total
    rw [List.cons_append, List.map_cons] at same
    rw [List.cons_append, List.map_cons, List.map_cons, emptyBlocks_cons_cons, inner, List.map_cons, List.sum_cons]
    simpa [Line.comments, Fragment.isComment] using same

/-- A block with nothing between its braces is a gap. -/
theorem gapped_empty : Gapped (Statement.inBraces []) 1 := by
  have rows : (Statement.inBraces []).map rowOf = [Row.ofLine ['\x7b'], Row.ofLine ['\x7d']] := by
    simp [Statement.inBraces, rowOf_openBrace, rowOf_brace]
  refine ⟨?_, ?_⟩
  · rw [rows]
    exact ⟨rfl, rfl⟩
  · rw [rows]
    rfl

/-! ## Lines with more than braces -/

/-- There is something else than braces in the code. -/
structure Solid (code : Code) : Prop where
  shows : ∃ t ∈ code.tokens, t ≠ .opening .curly ∧ t ≠ .closing .curly

namespace Solid

theorem left {a b : Code} (solid : Solid a) : Solid (a ++ b) := by
  obtain ⟨t, mem, other⟩ := solid.shows
  exact ⟨t, by simp [mem], other⟩

theorem right {a b : Code} (solid : Solid b) : Solid (a ++ b) := by
  obtain ⟨t, mem, other⟩ := solid.shows
  exact ⟨t, by simp [mem], other⟩

theorem fixed {text : List Char}
    (shows : ((tokensOf text).getD []).any (fun t => t != .opening .curly && t != .closing .curly) = true) :
    Solid [.fixed (String.ofList text)] := by
  obtain ⟨t, mem, other⟩ := List.any_eq_true.1 shows
  constructor
  rw [Code.tokens_singleton, Fragment.tokens_fixed]
  exact ⟨t, mem, by simpa using other⟩

end Solid

/-- The line does not begin a block. -/
def Line.IsShut : Line → Prop
  | .plain code => Solid code
  | .opening code => Solid code
  | .closing code => Solid code ∨ code = "\x7d"
  | .switching code => Solid code
  | .remark _ => True

/-- The line neither begins nor ends a block. -/
def Line.IsSolid : Line → Prop
  | .plain code => Solid code
  | .opening code => Solid code
  | .closing code => Solid code
  | .switching code => Solid code
  | .remark _ => True

/-- A line that is solid and read is none of the two braces. -/
theorem Line.IsSolid.row {line : Line} (solid : Line.IsSolid line) (read : IsRead line) :
    (rowOf line).opensBlock = false ∧ (rowOf line).closesBlock = false := by
  have shows : ∃ t ∈ line.tokens, t ≠ .opening .curly ∧ t ≠ .closing .curly := by
    cases line with
    | remark text => exact ⟨.comment, by simp [Line.tokens], by decide⟩
    | _ => exact solid.shows
  obtain ⟨t, mem, left, right⟩ := shows
  rw [Row.opensBlock, Row.closesBlock, read.rowOf, beq_eq_false_iff_ne, beq_eq_false_iff_ne]
  constructor
  · intro same
    rw [same, List.mem_singleton] at mem
    exact left mem
  · intro same
    rw [same, List.mem_singleton] at mem
    exact right mem

theorem Line.IsShut.row {line : Line} (shut : Line.IsShut line) (read : IsRead line) :
    (rowOf line).opensBlock = false := by
  by_cases solid : Line.IsSolid line
  · exact (solid.row read).1
  · cases line with
    | closing code =>
      obtain rfl : code = "\x7d" := shut.resolve_left solid
      rw [rowOf_brace]
      rfl
    | _ => exact absurd shut solid

/-- No lines of which none begins a block have an empty one. -/
theorem emptyBlocks_eq_zero {rows : List Row} (shut : ∀ row ∈ rows, row.opensBlock = false) : emptyBlocks rows = 0 := by
  induction rows with
  | nil => rfl
  | cons row rows ih =>
    rw [List.forall_mem_cons] at shut
    cases rows with
    | nil => rfl
    | cons second rows =>
      rw [emptyBlocks_cons_cons, shut.1, ih shut.2]
      rfl

/-- Lines that begin no block, the first of which does not end one either. -/
theorem gapped_of_shut {lines : List Line} (read : ∀ line ∈ lines, IsRead line)
    (solid : ∀ line ∈ lines.head?, Line.IsSolid line) (shut : ∀ line ∈ lines, Line.IsShut line) :
    Gapped lines (lines.map Line.comments).sum := by
  have rows : ∀ row ∈ lines.map rowOf, row.opensBlock = false := by
    intro row mem
    obtain ⟨line, isIn, rfl⟩ := List.mem_map.1 mem
    exact (shut line isIn).row (read line isIn)
  refine ⟨⟨?_, ?_⟩, by rw [emptyBlocks_eq_zero rows, Nat.zero_add]⟩
  · cases lines with
    | nil => rfl
    | cons first rest => simpa using ((solid first rfl).row (read first (by simp))).2
  · cases last : (lines.map rowOf).getLast? with
    | none => rfl
    | some row => exact rows row (List.mem_of_getLast? last)

theorem solid_wearer (wearer : Wearer) : Solid wearer.code := by
  cases wearer <;> exact .fixed rfl

/-- The lines of an action begin no block. -/
theorem shut_action (act : Action) : ∀ line ∈ act.lines, Line.IsShut line := by
  cases act with
  | call code arguments =>
    simp only [Action.lines, Action.guarded, List.forall_mem_append, List.forall_mem_cons, List.forall_mem_map,
      List.not_mem_nil, IsEmpty.forall_iff, implies_true, and_true, Line.IsShut]
    refine ⟨⟨⟨⟨?_, .fixed rfl⟩, fun a _ => .right (.fixed rfl)⟩, .inl (.fixed rfl)⟩, ?_, .fixed rfl, .inr trivial⟩
    · exact .left (.left (.fixed rfl))
    · exact .left (.left (.fixed rfl))
  | _ =>
    simp only [Action.lines, Action.guarded, Action.listPlace, Operand.listCode, List.forall_mem_append,
      List.forall_mem_cons, List.not_mem_nil, IsEmpty.forall_iff, implies_true, and_true, Line.IsShut]
    repeat' apply And.intro
    all_goals first
      | exact .inr trivial
      | (repeat apply Solid.left); first | exact .fixed rfl | exact solid_wearer _

theorem solid_action (act : Action) : ∀ line ∈ act.lines.head?, Line.IsSolid line := by
  intro line mem
  have shut := shut_action act line (List.mem_of_mem_head? mem)
  cases line with
  | closing code => cases act <;> simp [Action.lines, Action.guarded, Action.listPlace] at mem
  | _ => exact shut

theorem gapped_action {act : Action} (other : act ≠ .nothing) : Gapped act.lines (act.marks.count .gap) := by
  rw [← action_comments other]
  exact gapped_of_shut (passage_action act).isRead (solid_action act) (shut_action act)

/-! ## Statements -/

theorem gapped_line {line : Line} (read : IsRead line) (solid : Line.IsSolid line) : Gapped [line] line.comments := by
  have row := solid.row read
  refine ⟨⟨by simpa using row.2, by simpa using row.1⟩, by simp⟩

/-- The step for loops: the lines around a body add the comments of the head and no empty block. -/
theorem gapped_loop {head : Code} {body : List Line} {n : Nat} (solid : Solid head)
    (read : ∀ line ∈ loopLines head body, IsRead line) (gapped : Gapped body n) :
    Gapped (loopLines head body) (head.countP Fragment.isComment + n) := by
  have begins : Gapped [.opening head] _ := gapped_line (read _ (by simp [loopLines])) solid
  have refresh : Gapped [.plain screenRefresh] _ :=
    gapped_line (read _ (by simp [loopLines])) (Solid.fixed rfl)
  have turn := (begins.append gapped).append refresh
  have whole := turn.closed (by simp)
  simpa [loopLines, Line.comments, Fragment.isComment] using whole

theorem loopLines_ne_nil (head : Code) (body : List Line) : loopLines head body ≠ [] := by simp [loopLines]

theorem solid_untilHead (condition : Operand) : Solid (Statement.untilHead condition) :=
  .left (.left (.fixed rfl))

theorem solid_branchHead (condition : Operand) : Solid (Statement.branchHead condition) :=
  .left (.left (.fixed rfl))

theorem comments_untilHead (condition : Operand) :
    (Statement.untilHead condition).countP Fragment.isComment = condition.marks.count .gap := by
  simp [Statement.untilHead, Fragment.isComment, operand_comments]

theorem comments_branchHead (condition : Operand) :
    (Statement.branchHead condition).countP Fragment.isComment = condition.marks.count .gap := by
  simp [Statement.branchHead, Fragment.isComment, operand_comments]

theorem action_lines_ne_nil {act : Action} (other : act ≠ .nothing) : act.lines ≠ [] := by
  cases act with
  | nothing => exact absurd rfl other
  | _ => simp [Action.lines, Action.listPlace, Action.guarded]

mutual

/-- The lines of a statement have a comment or an empty block for each of its gaps. -/
theorem gapped_statement : (statement : Statement) → Gapped statement.lines (statement.marks.count .gap)
  | .action act => by
    by_cases empty : act = .nothing
    · subst empty
      exact gapped_empty
    · exact (gapped_action empty).inBraces (action_lines_ne_nil empty)
  | .forever body => by
    have read := (passage_body (.forever body)).isRead
    have loop := gapped_loop (Solid.fixed rfl) read (gapped_chain body)
    exact (loop.inBraces (loopLines_ne_nil _ _)).count_eq (by simp [Statement.marks, Fragment.isComment])
  | .repeatTimes times body => by
    have read := (passage_body (.repeatTimes times body)).isRead
    have inside := (passage_chain body).counted
    have bound := gapped_line (read (.plain ("const _times = " ++ times.code ++ ";")) (by simp [Statement.bodyLines]))
      (Solid.left (.left (.fixed rfl)))
    have count := gapped_line (read (.plain "let _i = 0;") (by simp [Statement.bodyLines])) (Solid.fixed rfl)
    have step := gapped_line (inside.isRead (.plain "_i++;") (by simp)) (Solid.fixed rfl)
    have loop := gapped_loop (Solid.fixed rfl) (fun line mem => read line (List.mem_append_right _ mem))
      ((gapped_chain body).append step)
    have whole := (bound.append count).append loop
    refine (whole.inBraces (by simp)).count_eq ?_
    simp [Statement.marks, Line.comments, Fragment.isComment, operand_comments]
  | .repeatUntil condition body => by
    have read := (passage_body (.repeatUntil condition body)).isRead
    have loop := gapped_loop (solid_untilHead condition) read (gapped_chain body)
    refine (loop.inBraces (loopLines_ne_nil _ _)).count_eq ?_
    rw [comments_untilHead, Statement.marks, List.count_append]
  | .waitUntil condition => by
    have read := (passage_body (.waitUntil condition)).isRead
    have loop := gapped_loop (solid_untilHead condition) read .nil
    exact (loop.inBraces (loopLines_ne_nil _ _)).count_eq (comments_untilHead condition)
  | .branch condition body => by
    have read := (passage_body (.branch condition body)).isRead
    have head := gapped_line (read (.opening (Statement.branchHead condition)) (by simp [Statement.bodyLines]))
      (solid_branchHead condition)
    have whole := (head.append (gapped_chain body)).closed (by simp)
    refine (whole.inBraces (by simp)).count_eq ?_
    rw [Line.comments, comments_branchHead, Statement.marks, List.count_append]
  | .branchElse condition body other => by
    have read := (passage_body (.branchElse condition body other)).isRead
    have head := gapped_line (read (.opening (Statement.branchHead condition)) (by simp [Statement.bodyLines]))
      (solid_branchHead condition)
    have between := gapped_line (read (.switching "\x7d else \x7b") (by simp [Statement.bodyLines])) (Solid.fixed rfl)
    have both := ((head.append (gapped_chain body)).append between).append (gapped_chain other)
    have whole := both.closed (by simp)
    refine (whole.inBraces (by simp)).count_eq ?_
    simp [Line.comments, comments_branchHead, Statement.marks, Fragment.isComment, Nat.add_assoc]

theorem gapped_chain : (statements : List Statement) →
    Gapped (Statement.chainLines statements) ((Statement.chainMarks statements).count .gap)
  | [] => .nil
  | statement :: rest => by
    have both := (gapped_statement statement).append (gapped_chain rest)
    exact both.count_eq (by rw [Statement.chainMarks, List.count_append])

end

/-! ## Scripts and targets -/

/-- The line has more than braces and no comment. -/
structure IsFrame (line : Line) : Prop where
  read : IsRead line
  solid : Line.IsSolid line
  silent : line.comments = 0

theorem IsFrame.gapped {line : Line} (frame : IsFrame line) : Gapped [line] 0 :=
  (gapped_line frame.read frame.solid).count_eq frame.silent

theorem gapped_frame {lines : List Line} (frame : ∀ line ∈ lines, IsFrame line) : Gapped lines 0 := by
  induction lines with
  | nil => exact .nil
  | cons line lines ih =>
    rw [List.forall_mem_cons] at frame
    exact frame.1.gapped.append (ih frame.2)

/-- A script has a comment or an empty block for each of its gaps. -/
theorem gapped_script (script : Script) : Gapped script.lines (script.marks.count .gap) := by
  have inside := gapped_chain script.body
  have read := (passage_script script).isRead
  cases script with
  | whenFlagClicked body =>
    simp only [Script.lines, List.forall_mem_append, List.forall_mem_cons] at read
    obtain ⟨⟨⟨first, second, -⟩, -⟩, third, -, last, -⟩ := read
    have head := (IsFrame.gapped ⟨first, Solid.fixed rfl, rfl⟩).append (IsFrame.gapped ⟨second, Solid.fixed rfl, rfl⟩)
    have refresh : Gapped [.plain screenRefresh] 0 := IsFrame.gapped ⟨third, Solid.fixed rfl, rfl⟩
    have guarded := ((head.append inside).append refresh).closed (by simp)
    have whole := guarded.append (IsFrame.gapped ⟨last, Solid.fixed rfl, rfl⟩)
    simpa [Script.lines, Script.marks, Script.body] using whole
  | whenReceived message body =>
    simp only [Script.lines, List.forall_mem_append, List.forall_mem_cons] at read
    obtain ⟨⟨⟨first, named, second, -⟩, -⟩, third, fourth, last, -⟩ := read
    have name := IsFrame.gapped ⟨named, Solid.left (.left (.fixed rfl)), rfl⟩
    have head := (IsFrame.gapped ⟨first, Solid.fixed rfl, rfl⟩).append
      (name.append (IsFrame.gapped ⟨second, Solid.fixed rfl, rfl⟩))
    have refresh : Gapped [.plain screenRefresh] 0 := IsFrame.gapped ⟨third, Solid.fixed rfl, rfl⟩
    have ended := (IsFrame.gapped ⟨fourth, Solid.fixed rfl, rfl⟩).append (IsFrame.gapped ⟨last, Solid.fixed rfl, rfl⟩)
    simpa [Script.lines, Script.marks, Script.body] using (head.append inside).append (refresh.append ended)
  | whenCloned body =>
    simp only [Script.lines, List.forall_mem_append, List.forall_mem_cons] at read
    obtain ⟨⟨⟨first, -⟩, -⟩, third, last, -⟩ := read
    have refresh : Gapped [.plain screenRefresh] 0 := IsFrame.gapped ⟨third, Solid.fixed rfl, rfl⟩
    have ended := refresh.append (IsFrame.gapped ⟨last, Solid.fixed rfl, rfl⟩)
    have whole := ((IsFrame.gapped ⟨first, Solid.fixed rfl, rfl⟩).append inside).append ended
    simpa [Script.lines, Script.marks, Script.body] using whole
  | procedure signature body =>
    simp only [Script.lines, List.forall_mem_append, List.forall_mem_cons] at read
    obtain ⟨⟨⟨stored, called, -⟩, -⟩, ended, ids, names, last, -⟩ := read
    have head := (IsFrame.gapped ⟨stored, Solid.left (.left (.fixed rfl)), rfl⟩).append
      (IsFrame.gapped ⟨called, Solid.fixed rfl, rfl⟩)
    have arrays := (IsFrame.gapped ⟨ids, Solid.left (.left (.fixed rfl)), rfl⟩).append
      (IsFrame.gapped ⟨names, Solid.left (.left (.fixed rfl)), rfl⟩)
    have tail := (IsFrame.gapped ⟨ended, Solid.fixed rfl, rfl⟩).append
      (arrays.append (IsFrame.gapped ⟨last, Solid.fixed rfl, rfl⟩))
    simpa [Script.lines, Script.marks, Script.body] using (head.append inside).append tail

theorem gapped_scripts (scripts : List Script) :
    Gapped (scripts.flatMap Script.lines) ((scripts.flatMap Script.marks).count .gap) := by
  induction scripts with
  | nil => exact .nil
  | cons script scripts ih =>
    rw [List.flatMap_cons, List.flatMap_cons, List.count_append]
    exact (gapped_script script).append ih

/-- The lines before the scripts have no gaps. -/
theorem frame_headLines (d : Descriptor) : ∀ line ∈ d.headLines, IsFrame line := by
  have read : ∀ line ∈ d.headLines, IsRead line := fun line mem => (passage_descriptor d).isRead line (by simp [mem])
  have solid : ∀ line ∈ d.headLines, Line.IsSolid line := by
    simp only [Descriptor.headLines, Descriptor.globalLines, List.forall_mem_append, List.forall_mem_map,
      List.forall_mem_cons, List.not_mem_nil, IsEmpty.forall_iff, implies_true, and_true, Line.IsSolid]
    exact ⟨⟨⟨⟨fun _ _ => .right (.fixed rfl), fun _ _ => .right (.fixed rfl)⟩, .fixed rfl, .fixed rfl⟩,
      fun _ _ => .right (.fixed rfl)⟩, .fixed rfl⟩
  have silent : ∀ line ∈ d.headLines, line.comments = 0 := by
    simp only [Descriptor.headLines, Descriptor.globalLines, Descriptor.arguments, List.forall_mem_append,
      List.forall_mem_map, List.forall_mem_cons, List.not_mem_nil, IsEmpty.forall_iff, implies_true, and_true,
      Line.comments]
    exact ⟨⟨⟨⟨fun _ _ => rfl, fun _ _ => rfl⟩, rfl, rfl⟩, rfl, rfl, rfl, rfl, rfl, rfl, rfl, rfl, rfl, rfl, rfl⟩,
      rfl⟩
  exact fun line mem => ⟨read line mem, solid line mem, silent line mem⟩

/-- The run over a target: as many comments and empty blocks as there are gaps. -/
theorem gapped_descriptor (d : Descriptor) :
    Gapped (d.headLines ++ d.scriptLines ++ d.tailLines) ((d.scripts.flatMap Script.marks).count .gap) := by
  have read := (passage_descriptor d).isRead
  simp only [Descriptor.tailLines, List.forall_mem_append, List.forall_mem_cons] at read
  obtain ⟨-, -, second, visible, last, -⟩ := read
  have body := (gapped_frame (frame_headLines d)).append (gapped_scripts d.scripts)
  have closed := body.closed (by simp [Descriptor.headLines])
  have shown := IsFrame.gapped ⟨visible, Solid.left (.left (.fixed rfl)), rfl⟩
  have tail := (IsFrame.gapped ⟨second, Solid.fixed rfl, rfl⟩).append
    (shown.append (IsFrame.gapped ⟨last, Solid.fixed rfl, rfl⟩))
  simpa [Descriptor.tailLines, Descriptor.scriptLines] using closed.append tail

/-- The run over a target: all its comments are written as such. -/
theorem shown_descriptor (d : Descriptor) :
    AllHold (Line.Holds Shown) (d.headLines ++ d.scriptLines ++ d.tailLines) := by
  have table : ∀ text ∈ tableTexts, Shown [.fixed text] := by
    simp only [tableTexts, List.forall_mem_cons]
    exact ⟨shown_fixed rfl, shown_fixed rfl, by simp⟩
  apply texture_shown.weave.descriptor
  · simp only [chainTexts, screenRefresh, List.forall_mem_cons, List.not_mem_nil, IsEmpty.forall_iff,
      implies_true, and_true]
    exact ⟨shown_fixed rfl, shown_fixed rfl, shown_fixed rfl, shown_fixed rfl⟩
  · intro script _
    cases script <;> simp only [scriptTexts, List.mem_singleton, forall_eq] <;> exact shown_fixed rfl
  · intro script _ name _
    exact texture_shown.append (texture_shown.append (shown_fixed rfl) (texture_shown.quoted name)) (shown_fixed rfl)
  · exact fun _ _ code _ => (texture_shown.tableLines table code).1
  · exact fun _ _ code _ => (texture_shown.tableLines table code).2

/-- The code of a target has one comment or one empty block for each gap in its scripts. -/
theorem gaps_descriptor (d : Descriptor) :
    ∃ ts, tokens d.code = some ts ∧
      ts.count .comment + emptyBlocks (rowsOf d.code) = (d.scripts.flatMap Script.marks).count .gap := by
  have gapped := gapped_descriptor d
  refine ⟨_, tokens_writeAll (passage_descriptor d [] true) 0, ?_⟩
  have last : emptyBlocks [Row.ofLine []] = 0 := rfl
  rw [count_comments (shown_descriptor d), rowsOf_descriptor, emptyBlocks_append gapped.isSealed.last, last,
    ← gapped.total]
  omega

end Lexical

end ScratchPage
