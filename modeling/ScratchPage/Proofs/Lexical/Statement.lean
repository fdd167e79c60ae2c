import ScratchPage.Code.Statement
import ScratchPage.Proofs.Lexical.Operand

/-!
# Statements as passages

The lines of every statement can stand wherever a statement of an asynchronous function can. The one
place where an operand stands inside an arrow function that is not asynchronous is the duration of a
wait, so an `await` is stranded exactly when the duration of some wait has one.
-/

namespace ScratchPage
set_option autoImplicit false

/-- The durations that an action waits for. -/
def Action.waits : Action → List Operand
  | .wait seconds => [seconds]
  | _ => []

mutual

/-- The durations of the waits in a statement. -/
def Statement.waits : Statement → List Operand
  | .action act => act.waits
  | .forever body => chainWaits body
  | .repeatTimes _ body => chainWaits body
  | .repeatUntil _ body => chainWaits body
  | .waitUntil _ => []
  | .branch _ body => chainWaits body
  | .branchElse _ body other => chainWaits body ++ chainWaits other

/-- The durations of the waits in statements. -/
def Statement.chainWaits : List Statement → List Operand
  | [] => []
  | statement :: rest => statement.waits ++ chainWaits rest

end

namespace Lexical

/-- The lines of an action are a passage. -/
theorem passage_action (act : Action) : Passage true act.lines (act.waits.any Operand.awaits) := by
  -- The operands and names in the lines are passed over as phrases, and `rfl` reads the fixed texts.
  obtain ⟨_, _, inner⟩ := Phrase.all_passed fun a (_ : True) => phrase_operand a
  obtain ⟨_, _, quoted⟩ := Phrase.all_passed fun text (_ : True) => .quoted text
  intro outer sound
  cases act with
  | nothing | unknown | unresolvedCall => rfl
  | goTo sort | glideToDestination _ sort | nextCostume sort | switchCostume sort _ | setVisible sort
  | goToLayer sort =>
    cases sort <;>
    · simp only [Action.lines, Action.guarded, Destination.code, Wearer.code, Layer.method, Bool.false_eq_true,
        if_true, if_false, passLines, passLine, pass_append, pass_singleton, inner, Action.waits]
      repeat rw [Fragment.chars_fixed]
      rfl
  | call code arguments =>
    have phrases : ∀ a ∈ arguments, ∃ awaits, Phrase a.code awaits := fun a _ => ⟨_, phrase_operand a⟩
    obtain ⟨_, given⟩ := (Passage.items Operand.code arguments phrases).passed
    simp only [Action.lines, Action.guarded, passLines_append, passLines, passLine, pass_append,
      pass_singleton, quoted, given, Action.waits]
    repeat rw [Fragment.chars_fixed]
    rfl
  | _ =>
    simp only [Action.lines, Action.listPlace, Action.guarded, Operand.listCode, passLines_append, passLines,
      passLine, pass_append, pass_singleton, inner, quoted, Action.waits, List.any_cons, List.any_nil,
      Bool.or_false]
    repeat rw [Fragment.chars_fixed]
    rfl

mutual

/-- The lines of a statement are a passage. -/
theorem passage_body : (statement : Statement) →
    Passage true statement.bodyLines (statement.waits.any Operand.awaits)
  | .action act => passage_action act
  | .forever body => by
    intro outer sound
    obtain ⟨_, inside⟩ := (passage_chain body).passed
    simp only [Statement.bodyLines, loopLines, screenRefresh, passLines_append, passLines, passLine,
      pass_singleton, inside, Statement.waits]
    repeat rw [Fragment.chars_fixed]
    rfl
  | .repeatTimes times body => by
    intro outer sound
    obtain ⟨_, _, first⟩ := (phrase_operand times).passed
    obtain ⟨_, inside⟩ := (passage_chain body).passed
    simp only [Statement.bodyLines, loopLines, screenRefresh, passLines_append, passLines, passLine,
      pass_append, pass_singleton, first, inside, Statement.waits]
    repeat rw [Fragment.chars_fixed]
    rfl
  | .repeatUntil condition body => by
    intro outer sound
    obtain ⟨_, _, first⟩ := (phrase_operand condition).passed
    obtain ⟨_, inside⟩ := (passage_chain body).passed
    simp only [Statement.bodyLines, Statement.untilHead, loopLines, screenRefresh, passLines_append,
      passLines, passLine, pass_append, pass_singleton, first, inside, Statement.waits]
    repeat rw [Fragment.chars_fixed]
    rfl
  | .waitUntil condition => by
    intro outer sound
    obtain ⟨_, _, first⟩ := (phrase_operand condition).passed
    simp only [Statement.bodyLines, Statement.untilHead, loopLines, screenRefresh, passLines_append,
      passLines, passLine, pass_append, pass_singleton, first, Statement.waits]
    repeat rw [Fragment.chars_fixed]
    rfl
  | .branch condition body => by
    intro outer sound
    obtain ⟨_, _, first⟩ := (phrase_operand condition).passed
    obtain ⟨_, inside⟩ := (passage_chain body).passed
    simp only [Statement.bodyLines, Statement.branchHead, passLines_append, passLines, passLine,
      pass_append, pass_singleton, first, inside, Statement.waits]
    repeat rw [Fragment.chars_fixed]
    rfl
  | .branchElse condition body other => by
    intro outer sound
    obtain ⟨_, _, first⟩ := (phrase_operand condition).passed
    obtain ⟨_, inside⟩ := (passage_chain body).passed
    obtain ⟨_, insideOther⟩ := (passage_chain other).passed
    simp only [Statement.bodyLines, Statement.branchHead, passLines_append, passLines, passLine,
      pass_append, pass_singleton, first, inside, insideOther, Statement.waits, List.any_append,
      Context.strand_or]
    repeat rw [Fragment.chars_fixed]
    rfl

/-- The lines of a chain of statements are a passage. -/
theorem passage_chain : (chain : List Statement) →
    Passage true (Statement.chainLines chain) ((Statement.chainWaits chain).any Operand.awaits)
  | [] => fun _ _ => rfl
  | statement :: rest => by
    intro outer sound
    obtain ⟨_, first⟩ := (passage_body statement).passed
    obtain ⟨_, others⟩ := (passage_chain rest).passed
    simp only [Statement.chainLines, Statement.inBraces, passLines_append, passLines, passLine,
      pass_singleton, first, others, Statement.chainWaits, List.any_append, Context.strand_or]
    repeat rw [Fragment.chars_fixed]
    rfl

end

end Lexical

end ScratchPage
