import Mathlib.Algebra.Ring.Nat
import ScratchPage.Proofs.Compile.Tracked
import ScratchPage.Proofs.Lexical.Rows

/-!
# Loops and the screen

Every turn of a loop ends by waiting for the screen, and waits there once: the wait is the last line of
the loop's body, and any other wait in the body belongs to a loop inside it. The only other waits are
those at the end of scripts that events start.

Loops are found in the lines of the finished code. The body of a loop is what stands between the line
that opens its brace and the line that closes it, so it is settled by the brackets alone
(`IsLoop.eq_of_append_eq`).
-/

namespace ScratchPage
set_option autoImplicit false

mutual

/-- The number of loops in a statement. -/
def Statement.loops : Statement → Nat
  | .action _ => 0
  | .forever body => chainLoops body + 1
  | .repeatTimes _ body => chainLoops body + 1
  | .repeatUntil _ body => chainLoops body + 1
  | .waitUntil _ => 1
  | .branch _ body => chainLoops body
  | .branchElse _ body other => chainLoops body + chainLoops other

/-- The number of loops in statements. -/
def Statement.chainLoops : List Statement → Nat
  | [] => 0
  | statement :: rest => statement.loops + chainLoops rest

end

/-- The number of loops in the scripts of a target. -/
def Descriptor.loops (d : Descriptor) : Nat :=
  (d.scripts.map fun script => Statement.chainLoops script.body).sum

/-- The script is started by an event. -/
def Script.isEvent : Script → Bool
  | .procedure _ _ => false
  | _ => true

namespace Lexical

/-! ## Loops in rows -/

/-- The line begins a loop. -/
def Row.isLoop (row : Row) : Bool := row.tokens.contains (.word loopWord)

/-- The line begins a script that an event starts. -/
def Row.isEvent (row : Row) : Bool := eventWords.any fun word => row.tokens.contains (.word word)

/-- A loop from the line that opens its brace to the line that closes it. -/
structure IsLoop (head : Row) (body : List Row) (last : Row) : Prop where
  isLoop : head.isLoop = true
  opens : feed nest [] head.tokens = some [.curly]
  closed : feed nest [] (tokensIn body) = some []
  closes : feed nest [.curly] last.tokens = some []

/-- The row stands in the body of a loop. -/
def InLoop (before : List Row) (row : Row) (after : List Row) : Prop :=
  ∃ first head ahead behind last rest, before = first ++ head :: ahead ∧ after = behind ++ last :: rest ∧
    IsLoop head (ahead ++ row :: behind) last

/-- The body ends with the wait for the screen, and there is no other one in it outside inner loops. -/
def RefreshesOnce (body : List Row) : Prop :=
  ∃ inner row, body = inner ++ [row] ∧ row.refreshes = true ∧
    ∀ before other after, inner = before ++ other :: after → other.refreshes = true →
      InLoop before other after

/-- Every line that begins a loop begins one that waits for the screen once. -/
def LoopsRefresh (rows : List Row) : Prop :=
  ∀ before head rest, rows = before ++ head :: rest → head.isLoop = true →
    ∃ body last after, rest = body ++ last :: after ∧ IsLoop head body last ∧ RefreshesOnce body

@[simp] theorem tokensIn_append (a b : List Row) : tokensIn (a ++ b) = tokensIn a ++ tokensIn b :=
  List.flatMap_append

@[simp] theorem tokensIn_cons (row : Row) (rows : List Row) :
    tokensIn (row :: rows) = row.tokens ++ tokensIn rows :=
  List.flatMap_cons

/-- A closed body does not reach beyond the line that closes it. -/
theorem IsLoop.not_longer {head last other : Row} {body tail : List Row} (loop : IsLoop head body last)
    (longer : IsLoop head (body ++ last :: tail) other) : False := by
  have closed := longer.closed
  rw [tokensIn_append, tokensIn_cons, feed_append, loop.closed, Option.bind_some, feed_append] at closed
  obtain ⟨opened, first, -⟩ := Option.bind_eq_some_iff.1 closed
  have inside := feed_nest_append [.curly] first
  rw [List.nil_append, loop.closes, Option.some.injEq] at inside
  simp at inside

/-- The body of a loop is settled by the brackets. -/
theorem IsLoop.eq_of_append_eq {head last last' : Row} {body body' after after' : List Row}
    (loop : IsLoop head body last) (loop' : IsLoop head body' last')
    (same : body ++ last :: after = body' ++ last' :: after') : body = body' := by
  obtain ⟨tail, split, rest⟩ | ⟨tail, split, rest⟩ := List.append_eq_append_iff.1 same
  · cases tail with
    | nil => simpa using split.symm
    | cons row tail =>
      obtain ⟨rfl, -⟩ := List.cons.inj rest
      subst split
      exact (loop.not_longer loop').elim
  · cases tail with
    | nil => simpa using split
    | cons row tail =>
      obtain ⟨rfl, -⟩ := List.cons.inj rest
      subst split
      exact (loop'.not_longer loop).elim

theorem InLoop.append {before after : List Row} {row : Row} (inside : InLoop before row after)
    (left right : List Row) : InLoop (left ++ before) row (after ++ right) := by
  obtain ⟨first, head, ahead, behind, last, rest, rfl, rfl, loop⟩ := inside
  exact ⟨left ++ first, head, ahead, behind, last, rest ++ right, by simp, by simp, loop⟩

theorem LoopsRefresh.append {a b : List Row} (first : LoopsRefresh a) (second : LoopsRefresh b) :
    LoopsRefresh (a ++ b) := by
  intro before head rest split isLoop
  obtain ⟨tail, left, rfl⟩ | ⟨ahead, right, rfl⟩ := split_append split
  · obtain ⟨body, last, after, rfl, loop, once⟩ := first before head tail left isLoop
    exact ⟨body, last, after ++ b, by simp, loop, once⟩
  · exact second ahead head rest right isLoop

/-! ## Rows with a known number of loops -/

/-- Rows of statements: every loop waits for the screen once, and nothing else waits for it. -/
structure Paced (rows : List Row) (loops : Nat) : Prop where
  turns : LoopsRefresh rows
  held : ∀ before row after, rows = before ++ row :: after → row.refreshes = true → InLoop before row after
  refreshCount : rows.countP Row.refreshes = loops
  loopCount : rows.countP Row.isLoop = loops
  eventCount : rows.countP Row.isEvent = 0

/-- The row neither waits for the screen nor begins a loop or a script. -/
def Row.isQuiet (row : Row) : Bool := !row.refreshes && !row.isLoop && !row.isEvent

namespace Paced

/-- The loops of rows add up. -/
theorem append {a b : List Row} {m n : Nat} (first : Paced a m) (second : Paced b n) : Paced (a ++ b) (m + n) where
  turns := first.turns.append second.turns
  held := by
    intro before row after split refreshes
    obtain ⟨tail, left, rfl⟩ | ⟨ahead, right, rfl⟩ := split_append split
    · simpa using (first.held before row tail left refreshes).append [] b
    · simpa using (second.held ahead row after right refreshes).append a []
  refreshCount := by rw [List.countP_append, first.refreshCount, second.refreshCount]
  loopCount := by rw [List.countP_append, first.loopCount, second.loopCount]
  eventCount := by rw [List.countP_append, first.eventCount, second.eventCount]

/-- Quiet rows have no loops. -/
theorem quiet {rows : List Row} (quiet : ∀ row ∈ rows, row.isQuiet = true) : Paced rows 0 := by
  simp only [Row.isQuiet, Bool.and_eq_true, Bool.not_eq_true'] at quiet
  refine ⟨?_, ?_, ?_, ?_, ?_⟩
  · intro before head rest split isLoop
    simp [(quiet head (by simp [split])).1.2] at isLoop
  · intro before row after split refreshes
    simp [(quiet row (by simp [split])).1.1] at refreshes
  · rw [List.countP_eq_zero]
    exact fun row mem => by simp [(quiet row mem).1.1]
  · rw [List.countP_eq_zero]
    exact fun row mem => by simp [(quiet row mem).1.2]
  · rw [List.countP_eq_zero]
    exact fun row mem => by simp [(quiet row mem).2]

/-- A loop around rows whose brackets are closed. -/
theorem loop {head refresh last : Row} {body : List Row} {n : Nat} (paced : Paced body n)
    (isLoop : IsLoop head (body ++ [refresh]) last) (headOnly : head.refreshes = false ∧ head.isEvent = false)
    (waits : refresh.refreshes = true ∧ refresh.isLoop = false ∧ refresh.isEvent = false)
    (quietLast : last.isQuiet = true) : Paced (head :: (body ++ [refresh, last])) (n + 1) := by
  simp only [Row.isQuiet, Bool.and_eq_true, Bool.not_eq_true'] at quietLast
  have once : RefreshesOnce (body ++ [refresh]) := ⟨body, refresh, rfl, waits.1, paced.held⟩
  constructor
  · intro before row rest split begins
    cases before with
    | nil =>
      obtain ⟨rfl, rfl⟩ := List.cons.inj split
      exact ⟨body ++ [refresh], last, [], by simp, isLoop, once⟩
    | cons first before =>
      obtain ⟨rfl, inner⟩ := List.cons.inj split
      obtain ⟨tail, left, rfl⟩ | ⟨ahead, right, rfl⟩ := split_append inner
      · obtain ⟨own, closing, after, rfl, loop, refreshes⟩ := paced.turns before row tail left begins
        exact ⟨own, closing, after ++ [refresh, last], by simp, loop, refreshes⟩
      · have mem : row ∈ [refresh, last] := by simp [right]
        simp only [List.mem_cons, List.not_mem_nil, or_false] at mem
        rcases mem with rfl | rfl
        · simp [waits.2.1] at begins
        · simp [quietLast.1.2] at begins
  · intro before row after split refreshes
    cases before with
    | nil =>
      obtain ⟨rfl, rfl⟩ := List.cons.inj split
      simp [headOnly.1] at refreshes
    | cons first before =>
      obtain ⟨rfl, inner⟩ := List.cons.inj split
      obtain ⟨tail, left, rfl⟩ | ⟨ahead, right, rfl⟩ := split_append inner
      · exact (paced.held before row tail left refreshes).append [head] [refresh, last]
      · cases ahead with
        | nil =>
          obtain ⟨rfl, rfl⟩ := List.cons.inj right
          exact ⟨[], head, body, [], last, [], by simp, rfl, isLoop⟩
        | cons other ahead =>
          have mem : row ∈ [last] := by
            obtain ⟨-, right⟩ := List.cons.inj right
            simp [right]
          obtain rfl := List.mem_singleton.1 mem
          simp [quietLast.1.1] at refreshes
  · simp [paced.refreshCount, headOnly.1, waits.1, quietLast.1.1]
  · simp [paced.loopCount, isLoop.isLoop, waits.2.1, quietLast.1.2]
  · simp [paced.eventCount, headOnly.2, waits.2.2, quietLast.2]

end Paced

/-! ## Lines -/

/-- The words that rows are told apart by. -/
def rowWords : List (List Char) := loopWord :: refreshWord :: eventWords

/-- The line is read as the tokens of its fragments. -/
def IsRead (line : Line) : Prop := tokensOf line.content = some line.tokens

theorem isRead_of_passLines {σ : Type} {observe : σ → Token → Option σ} {s next : σ} {lines : List Line}
    (passed : passLines observe s lines = some next) : ∀ line ∈ lines, IsRead line := by
  induction lines generalizing s with
  | nil => simp
  | cons first lines ih =>
    obtain ⟨after, here, there⟩ := Option.bind_eq_some_iff.1 passed
    rw [List.forall_mem_cons]
    exact ⟨tokensOf_of_passLine here, ih there⟩

theorem IsRead.rowOf {line : Line} (read : IsRead line) : (rowOf line).tokens = line.tokens := by
  simp [Lexical.rowOf, Row.ofLine, show tokensOf line.content = some line.tokens from read]

theorem tokensIn_rows {lines : List Line} (read : ∀ line ∈ lines, IsRead line) :
    tokensIn (lines.map rowOf) = lines.flatMap Line.tokens := by
  rw [tokensIn, List.flatMap_map]
  exact List.flatMap_congr fun line mem => (read line mem).rowOf

theorem Passage.isRead {async strands : Bool} {lines : List Line} (passage : Passage async lines strands) :
    ∀ line ∈ lines, IsRead line :=
  isRead_of_passLines (passage [] true)

theorem Passage.closed {async strands : Bool} {lines : List Line} (passage : Passage async lines strands) :
    feed nest [] (tokensIn (lines.map rowOf)) = some [] := by
  rw [tokensIn_rows passage.isRead]
  exact feed_nest_of_see (feed_of_passLines (passage [] true))

/-- A line without the words that rows are told apart by is quiet. -/
theorem isQuiet_of_lacks {line : Line} (read : IsRead line)
    (lacks : ∀ word ∈ rowWords, Line.Holds (Lacks word) line) : (rowOf line).isQuiet = true := by
  have absent : ∀ word ∈ rowWords, .word word ∉ line.tokens := fun word mem => not_mem_of_holds (lacks word mem)
  have refreshes : (rowOf line).refreshes = false :=
    refreshes_eq_false read (absent refreshWord (by simp [rowWords]))
  have isLoop : (rowOf line).isLoop = false := by
    simpa [Row.isLoop, read.rowOf] using absent loopWord (by simp [rowWords])
  have isEvent : (rowOf line).isEvent = false := by
    simp only [Row.isEvent, List.any_eq_false, read.rowOf, List.contains_eq_mem, decide_eq_true_eq]
    exact fun word mem => absent word (by simp [rowWords, mem])
  simp [Row.isQuiet, refreshes, isLoop, isEvent]

theorem Paced.of_lacks {lines : List Line} (read : ∀ line ∈ lines, IsRead line)
    (lacks : ∀ word ∈ rowWords, AllHold (Line.Holds (Lacks word)) lines) : Paced (lines.map rowOf) 0 := by
  apply Paced.quiet
  intro row mem
  obtain ⟨line, isIn, rfl⟩ := List.mem_map.1 mem
  exact isQuiet_of_lacks (read line isIn) fun word mem => lacks word mem line isIn

theorem texture_rowWord {word : List Char} (mem : word ∈ rowWords) : Texture (Lacks word) := by
  apply texture_lacks
  simp only [rowWords, markedWords, List.mem_cons] at mem ⊢
  tauto

theorem lacks_rowWord {word : List Char} (mem : word ∈ rowWords) (operand : Operand) :
    Lacks word operand.code := by
  apply (texture_rowWord mem).operand
  intro name _
  have quoted : Lacks word (Code.quoted name) := (texture_rowWord mem).quoted name
  fin_cases mem <;> exact (Lacks.append (.fixed rfl) quoted).append (.fixed rfl)

theorem lacks_tableTexts {word : List Char} (mem : word ∈ rowWords) :
    ∀ text ∈ tableTexts, Lacks word [.fixed text] := by
  simp only [tableTexts, List.forall_mem_cons, List.not_mem_nil, false_imp_iff, implies_true, and_true]
  fin_cases mem <;> exact ⟨.fixed rfl, .fixed rfl⟩

theorem paced_action (act : Action) : Paced (act.lines.map rowOf) 0 := by
  apply Paced.of_lacks (passage_action act).isRead
  intro word mem
  have texture := texture_rowWord mem
  exact texture.weave.action (fun operand _ => lacks_rowWord mem operand)
    fun code _ => (texture.tableLines (lacks_tableTexts mem) code).1

/-! ## Statements -/

/-- A line of one fixed text. -/
theorem rowOf_fixed (text : List Char) :
    rowOf (.plain [.fixed (String.ofList text)]) = Row.ofLine text ∧
    rowOf (.opening [.fixed (String.ofList text)]) = Row.ofLine text ∧
    rowOf (.closing [.fixed (String.ofList text)]) = Row.ofLine text ∧
    rowOf (.switching [.fixed (String.ofList text)]) = Row.ofLine text := by
  simp [rowOf, Line.content, Code.text_singleton, Fragment.text]

/-- What the head of a loop looks like. -/
structure IsHead (head : Code) : Prop where
  loops : .word loopWord ∈ head.tokens
  lacks : ∀ word ∈ refreshWord :: eventWords, Lacks word head
  opens : feed nest [] head.tokens = some [.curly]

/-- The step for loops: the body ends with the one wait that belongs to the loop around it. -/
theorem paced_loop {head : Code} {body : List Line} {n : Nat} (isHead : IsHead head)
    (read : IsRead (.opening head)) (paced : Paced (body.map rowOf) n)
    (closed : feed nest [] (tokensIn (body.map rowOf)) = some []) :
    Paced ((loopLines head body).map rowOf) (n + 1) := by
  have tokens : (rowOf (.opening head)).tokens = head.tokens := read.rowOf
  have lines : (loopLines head body).map rowOf =
      rowOf (.opening head) :: (body.map rowOf ++ [rowOf (.plain screenRefresh), rowOf (.closing "\x7d")]) := by
    simp [loopLines]
  have refresh : rowOf (.plain screenRefresh) = Row.ofLine screenRefresh.toList := by
    simp [rowOf, Line.content, Code.text_singleton, Fragment.text]
  have last : rowOf (.closing "\x7d") = Row.ofLine ['\x7d'] := (rowOf_fixed _).2.2.1
  rw [lines, refresh, last]
  apply paced.loop
  · refine ⟨by simpa [Row.isLoop, tokens] using isHead.loops, by rw [tokens]; exact isHead.opens, ?_, rfl⟩
    rw [tokensIn_append, feed_append, closed]
    rfl
  · constructor
    · exact refreshes_eq_false read (isHead.lacks refreshWord (by simp)).absent
    · simp only [Row.isEvent, List.any_eq_false, tokens, List.contains_eq_mem, decide_eq_true_eq]
      exact fun word mem => (isHead.lacks word (by simp [mem])).absent
  · exact ⟨rfl, rfl, rfl⟩
  · rfl

/-- An operand closes the brackets it opens. -/
theorem nest_operand (operand : Operand) (opened : List Bracket) :
    feed nest opened operand.code.tokens = some opened := by
  obtain ⟨last, passes⟩ := phrase_operand operand
  have closed : feed nest [] operand.code.tokens = some [] :=
    feed_nest_of_see (feed_of_pass (passes .idle .start rfl rfl))
  simpa using feed_nest_append opened closed

/-- A head without operands is checked on its text. -/
theorem IsHead.fixed {text : List Char} (isLoop : (Row.ofLine text).isLoop = true)
    (lacks : (refreshWord :: eventWords).all (fun word => !(Row.ofLine text).tokens.contains (.word word)) = true)
    (opens : feed nest [] (Row.ofLine text).tokens = some [.curly]) :
    IsHead [.fixed (String.ofList text)] := by
  have tokens : Code.tokens [.fixed (String.ofList text)] = (Row.ofLine text).tokens := by
    rw [Code.tokens_singleton, Fragment.tokens_fixed]
    rfl
  refine ⟨?_, fun word mem => ⟨?_⟩, ?_⟩
  · rw [tokens]
    simpa [Row.isLoop] using isLoop
  · rw [tokens]
    simpa using List.all_eq_true.1 lacks word mem
  · rw [tokens]
    exact opens

/-- The head of a loop with a condition, which has no word of a loop in it. -/
theorem isHead_until (condition : Operand) : IsHead (Statement.untilHead condition) := by
  have first : Code.tokens "while (!(" = [.word loopWord, .opening .round, .sign ['!'], .opening .round] := by
    rw [Code.tokens_singleton]
    exact Fragment.tokens_fixed _
  have last : Code.tokens ")) \x7b" = [.closing .round, .closing .round, .opening .curly] := by
    rw [Code.tokens_singleton]
    exact Fragment.tokens_fixed _
  refine ⟨?_, ?_, ?_⟩
  · rw [Statement.untilHead, Code.tokens_append, Code.tokens_append, first]
    simp
  · intro word mem
    have inner := lacks_rowWord (List.mem_cons_of_mem loopWord mem) condition
    fin_cases mem <;> exact (Lacks.append (.fixed rfl) inner).append (.fixed rfl)
  · rw [Statement.untilHead, Code.tokens_append, Code.tokens_append, first, last, feed_append, feed_append,
      show feed nest [] [.word loopWord, .opening .round, .sign ['!'], .opening .round] =
        some [.round, .round] from rfl, Option.bind_some, nest_operand]
    rfl

/-- The line that counts may follow the body of a loop. -/
theorem Passage.counted {lines : List Line} {strands : Bool} (passage : Passage true lines strands) :
    Passage true (lines ++ [.plain "_i++;"]) strands := by
  have last : Passage true [.plain "_i++;"] false := by
    intro outer sound
    simp only [passLines, passLine, pass_singleton]
    rw [Fragment.chars_fixed]
    rfl
  simpa using passage.append last

/-- A line without any of the words that rows are told apart by. -/
theorem paced_line {line : Line} (read : IsRead line)
    (lacks : ∀ {word : List Char}, word ∈ rowWords → Line.Holds (Lacks word) line) : Paced [rowOf line] 0 := by
  apply Paced.quiet
  rw [List.forall_mem_singleton]
  exact isQuiet_of_lacks read fun word mem => lacks mem

mutual

/-- The lines of a statement wait for the screen once in each loop. -/
theorem paced_body : (statement : Statement) → Paced (statement.bodyLines.map rowOf) statement.loops
  | .action act => paced_action act
  | .forever body => by
    have read := (passage_body (.forever body)).isRead
    exact paced_loop (.fixed rfl rfl rfl) (read _ (by simp [Statement.bodyLines, loopLines]))
      (paced_chain body) (passage_chain body).closed
  | .repeatTimes times body => by
    have read := (passage_body (.repeatTimes times body)).isRead
    simp only [Statement.bodyLines, loopLines, List.cons_append, List.nil_append, List.mem_cons,
      forall_eq_or_imp] at read
    have bound : Paced [rowOf (.plain ("const _times = " ++ times.code ++ ";"))] 0 := paced_line read.1 fun mem =>
      Lacks.append (((texture_rowWord mem).fixed rfl).append (lacks_rowWord mem times))
        ((texture_rowWord mem).fixed rfl)
    have count : Paced [rowOf (.plain "let _i = 0;")] 0 :=
      paced_line read.2.1 fun mem => (texture_rowWord mem).fixed rfl
    have inside := (passage_chain body).counted
    have step : Paced [rowOf (.plain "_i++;")] 0 :=
      paced_line (inside.isRead _ (by simp)) fun mem => (texture_rowWord mem).fixed rfl
    have turns : Paced ((Statement.chainLines body ++ [Line.plain "_i++;"]).map rowOf)
        (Statement.chainLoops body) := by
      simpa using (paced_chain body).append step
    have loop := paced_loop (.fixed rfl rfl rfl) read.2.2.1 turns inside.closed
    simpa [Statement.bodyLines, Statement.loops] using bound.append (count.append loop)
  | .repeatUntil condition body => by
    have read := (passage_body (.repeatUntil condition body)).isRead
    exact paced_loop (isHead_until condition) (read _ (by simp [Statement.bodyLines, loopLines]))
      (paced_chain body) (passage_chain body).closed
  | .waitUntil condition => by
    have read := (passage_body (.waitUntil condition)).isRead
    exact paced_loop (isHead_until condition) (read _ (by simp [Statement.bodyLines, loopLines]))
      (.quiet (by simp)) rfl
  | .branch condition body => by
    have read := (passage_body (.branch condition body)).isRead
    have head : Paced [rowOf (.opening (Statement.branchHead condition))] 0 :=
      paced_line (read _ (by simp [Statement.bodyLines])) fun mem =>
        (texture_rowWord mem).branchHead (lacks_rowWord mem condition)
    have last : Paced [rowOf (.closing "\x7d")] 0 :=
      paced_line (read _ (by simp [Statement.bodyLines])) fun mem =>
        (texture_rowWord mem).fixed rfl
    simpa [Statement.bodyLines, Statement.loops] using head.append ((paced_chain body).append last)
  | .branchElse condition body other => by
    have read := (passage_body (.branchElse condition body other)).isRead
    have head : Paced [rowOf (.opening (Statement.branchHead condition))] 0 :=
      paced_line (read _ (by simp [Statement.bodyLines])) fun mem =>
        (texture_rowWord mem).branchHead (lacks_rowWord mem condition)
    have between : Paced [rowOf (.switching "\x7d else \x7b")] 0 :=
      paced_line (read _ (by simp [Statement.bodyLines])) fun mem =>
        (texture_rowWord mem).fixed rfl
    have last : Paced [rowOf (.closing "\x7d")] 0 :=
      paced_line (read _ (by simp [Statement.bodyLines])) fun mem =>
        (texture_rowWord mem).fixed rfl
    have both := (paced_chain body).append (between.append ((paced_chain other).append last))
    simpa [Statement.bodyLines, Statement.loops] using head.append both

/-- The run along a chain: each statement is paced between its braces. -/
theorem paced_chain : (statements : List Statement) →
    Paced ((Statement.chainLines statements).map rowOf) (Statement.chainLoops statements)
  | [] => .quiet (by simp [Statement.chainLines])
  | statement :: rest => by
    have read := (passage_chain (statement :: rest)).isRead
    have first : Paced [rowOf (.opening "\x7b")] 0 :=
      paced_line (read _ (by simp [Statement.chainLines, Statement.inBraces])) fun mem =>
        (texture_rowWord mem).fixed rfl
    have last : Paced [rowOf (.closing "\x7d")] 0 :=
      paced_line (read _ (by simp [Statement.chainLines, Statement.inBraces])) fun mem =>
        (texture_rowWord mem).fixed rfl
    have braces := first.append ((paced_body statement).append last)
    simpa [Statement.chainLines, Statement.inBraces, Statement.chainLoops] using braces.append (paced_chain rest)

end

/-! ## Scripts and targets -/

/-- Rows whose loops wait for the screen once, with the number of waits, of loops and of scripts that
events start. -/
structure Tallied (rows : List Row) (refreshes loops events : Nat) : Prop where
  turns : LoopsRefresh rows
  refreshCount : rows.countP Row.refreshes = refreshes
  loopCount : rows.countP Row.isLoop = loops
  eventCount : rows.countP Row.isEvent = events

theorem Paced.tallied {rows : List Row} {n : Nat} (paced : Paced rows n) : Tallied rows n n 0 :=
  ⟨paced.turns, paced.refreshCount, paced.loopCount, paced.eventCount⟩

namespace Tallied

theorem append {a b : List Row} {r l e r' l' e' : Nat} (first : Tallied a r l e) (second : Tallied b r' l' e') :
    Tallied (a ++ b) (r + r') (l + l') (e + e') where
  turns := first.turns.append second.turns
  refreshCount := by rw [List.countP_append, first.refreshCount, second.refreshCount]
  loopCount := by rw [List.countP_append, first.loopCount, second.loopCount]
  eventCount := by rw [List.countP_append, first.eventCount, second.eventCount]

/-- A row that begins no loop is tallied by itself. -/
theorem row {row : Row} (other : row.isLoop = false) : Tallied [row] row.refreshes.toNat 0 row.isEvent.toNat where
  turns := by
    intro before head rest split isLoop
    have mem : head ∈ [row] := by simp [split]
    rw [List.mem_singleton] at mem
    simp [mem, other] at isLoop
  refreshCount := by cases refreshes : row.refreshes <;> simp [refreshes]
  loopCount := by simp [other]
  eventCount := by cases event : row.isEvent <;> simp [event]

end Tallied

theorem tallied_refresh : Tallied [rowOf (.plain screenRefresh)] 1 0 0 := by
  have row : rowOf (.plain screenRefresh) = Row.ofLine screenRefresh.toList := by
    simp [rowOf, Line.content, Code.text_singleton, Fragment.text]
  rw [row]
  exact .row rfl

/-- The line that begins a script which an event starts. -/
theorem tallied_head {text : List Char} (quiet : (Row.ofLine text).refreshes = false)
    (other : (Row.ofLine text).isLoop = false) (event : (Row.ofLine text).isEvent = true) :
    Tallied [rowOf (.opening [.fixed (String.ofList text)])] 0 0 1 := by
  have tallied := Tallied.row other
  rw [(rowOf_fixed text).2.1]
  simpa [quiet, event] using tallied

theorem lacks_array {word : List Char} (mem : word ∈ rowWords) {head : Code} (first : Lacks word head)
    (texts : List String) : Lacks word (head ++ Script.textArray texts ++ ",") :=
  (first.append ((texture_rowWord mem).data _)).append ((texture_rowWord mem).fixed rfl)

/-- The step for scripts: an event waits for the screen once more than its loops do, and a procedure does not.
-/
theorem tallied_script (script : Script) :
    Tallied (script.lines.map rowOf) (Statement.chainLoops script.body + script.isEvent.toNat)
      (Statement.chainLoops script.body) script.isEvent.toNat := by
  have inside := (paced_chain script.body).tallied
  have read := (passage_script script).isRead
  cases script with
  | whenFlagClicked body =>
    simp only [Script.lines, List.forall_mem_append, List.forall_mem_cons] at read
    obtain ⟨⟨⟨-, guarded, -⟩, -⟩, -, first, second, -⟩ := read
    have guard := paced_line guarded fun mem => (texture_rowWord mem).fixed rfl
    have brace := paced_line first fun mem => (texture_rowWord mem).fixed rfl
    have last := paced_line second fun mem => (texture_rowWord mem).fixed rfl
    have head : Tallied [rowOf (.opening "onStartListeners.push((async function() \x7b")] 0 0 1 :=
      tallied_head rfl rfl rfl
    have tail := tallied_refresh.append (brace.append last).tallied
    have whole := (head.append guard.tallied).append (inside.append tail)
    simpa [Script.lines, Script.isEvent, Script.body, Nat.add_comm] using whole
  | whenReceived message body =>
    simp only [Script.lines, List.forall_mem_append, List.forall_mem_cons] at read
    obtain ⟨⟨⟨-, named, called, -⟩, -⟩, -, first, second, -⟩ := read
    have name := paced_line named fun mem => (texture_rowWord mem).append
      ((texture_rowWord mem).append ((texture_rowWord mem).fixed rfl) ((texture_rowWord mem).quoted message))
      ((texture_rowWord mem).fixed rfl)
    have callback := paced_line called fun mem => (texture_rowWord mem).fixed rfl
    have brace := paced_line first fun mem => (texture_rowWord mem).fixed rfl
    have last := paced_line second fun mem => (texture_rowWord mem).fixed rfl
    have head : Tallied [rowOf (.opening "broadcastListeners.push(\x7b")] 0 0 1 := tallied_head rfl rfl rfl
    have tail := tallied_refresh.append (brace.append last).tallied
    have whole := (head.append (name.append callback).tallied).append (inside.append tail)
    simpa [Script.lines, Script.isEvent, Script.body, Nat.add_comm] using whole
  | whenCloned body =>
    simp only [Script.lines, List.forall_mem_append, List.forall_mem_cons] at read
    obtain ⟨-, -, ended, -⟩ := read
    have last := paced_line ended fun mem => (texture_rowWord mem).fixed rfl
    have head : Tallied [rowOf (.opening "this.onStartAsClone.push((async function() \x7b")] 0 0 1 :=
      tallied_head rfl rfl rfl
    have whole := head.append (inside.append (tallied_refresh.append last.tallied))
    simpa [Script.lines, Script.isEvent, Script.body, Nat.add_comm] using whole
  | procedure signature body =>
    simp only [Script.lines, List.forall_mem_append, List.forall_mem_cons] at read
    obtain ⟨⟨⟨stored, called, -⟩, -⟩, ended, ids, names, second, -⟩ := read
    have store := paced_line stored fun mem =>
      ((texture_rowWord mem).tableLines (lacks_tableTexts mem) signature.code).2
    have method := paced_line called fun mem => by fin_cases mem <;> exact Lacks.fixed rfl
    have brace := paced_line ended fun mem => (texture_rowWord mem).fixed rfl
    have argumentIds := paced_line ids fun mem => lacks_array mem ((texture_rowWord mem).fixed rfl) _
    have argumentNames := paced_line names fun mem => lacks_array mem ((texture_rowWord mem).fixed rfl) _
    have last := paced_line second fun mem => (texture_rowWord mem).fixed rfl
    have tail := brace.append (argumentIds.append (argumentNames.append last))
    have whole := (store.append method).tallied.append (inside.append tail.tallied)
    simpa [Script.lines, Script.isEvent, Script.body] using whole

/-- The run over the scripts of a target. -/
theorem tallied_scripts (scripts : List Script) :
    Tallied ((scripts.flatMap Script.lines).map rowOf)
      ((scripts.map fun script => Statement.chainLoops script.body).sum + scripts.countP Script.isEvent)
      (scripts.map fun script => Statement.chainLoops script.body).sum (scripts.countP Script.isEvent) := by
  induction scripts with
  | nil => exact (Paced.quiet (by simp)).tallied
  | cons script scripts ih =>
    have both := (tallied_script script).append ih
    have events : (script :: scripts).countP Script.isEvent = script.isEvent.toNat + scripts.countP Script.isEvent := by
      cases event : script.isEvent <;> simp [event, Nat.add_comm]
    rw [events, List.flatMap_cons, List.map_append, List.map_cons, List.sum_cons]
    convert both using 1
    omega

/-- The lines around the scripts add nothing to the tally. -/
theorem tallied_descriptor (d : Descriptor) :
    Tallied ((d.headLines ++ d.scriptLines ++ d.tailLines).map rowOf) (d.loops + d.scripts.countP Script.isEvent)
      d.loops (d.scripts.countP Script.isEvent) := by
  have read := (passage_descriptor d).isRead
  simp only [List.forall_mem_append] at read
  have head := Paced.of_lacks read.1.1 fun word mem => (texture_rowWord mem).weave.headLines d
  have tail := Paced.of_lacks read.2 fun word mem => (texture_rowWord mem).weave.tailLines d
  have all := (head.tallied.append (tallied_scripts d.scripts)).append tail.tallied
  simpa [Descriptor.loops, Descriptor.scriptLines] using all

theorem oneLine_of_holds {line : Line} (holds : Line.Holds (fun code => OneLine code.text.toList) line) :
    OneLine line.content := by
  cases line with
  | plain _ | opening _ | closing _ | switching _ => exact holds
  | remark text =>
    have plain : OneLine (Text.commentText text).toList := fun c mem => (commentText_plain text c mem).1
    rw [Line.content, String.toList_append]
    exact OneLine.append (by decide) plain

/-- No line of a target has another line break than its own. -/
theorem oneLine_descriptor (d : Descriptor) :
    ∀ line ∈ d.headLines ++ d.scriptLines ++ d.tailLines, OneLine line.content := by
  have special : ∀ text ∈ chainTexts, OneLine (Code.text [.fixed text]).toList := by decide
  have framed : ∀ script, ∀ text ∈ scriptTexts script, OneLine (Code.text [.fixed text]).toList := by
    intro script
    cases script <;> simp only [scriptTexts, List.mem_singleton, forall_eq] <;> decide
  have table : ∀ text ∈ tableTexts, OneLine (Code.text [.fixed text]).toList := by decide
  have all := texture_oneLine.weave.descriptor d special (fun script _ => framed script)
    (fun script _ name _ => oneLine_operand (.argument name))
    (fun _ _ code _ => (texture_oneLine.tableLines table code).1)
    fun _ _ code _ => (texture_oneLine.tableLines table code).2
  exact fun line mem => oneLine_of_holds (all line mem)

theorem rowsOf_descriptor (d : Descriptor) :
    rowsOf d.code = (d.headLines ++ d.scriptLines ++ d.tailLines).map rowOf ++ [Row.ofLine []] :=
  rowsOf_writeAll (oneLine_descriptor d) 0

/-- A loop that waits for the mouse button over and over inside another loop. -/
def nestedLoops : Target :=
  Compile.spriteOf
    [Compile.linkedBlock "hat" (.hat .whenFlagClicked) [] (some "forever"),
     Compile.linkedBlock "forever" (.command .forever) [("SUBSTACK", "until")] none,
     Compile.linkedBlock "until" (.command .repeatUntil) [("CONDITION", "test"), ("SUBSTACK", "wait")] none,
     Compile.linkedBlock "wait" (.command .waitUntil) [("CONDITION", "test")] none,
     Compile.linkedBlock "test" (.reporter .mouseDown) [] none]

end Lexical

end ScratchPage
