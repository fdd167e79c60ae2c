import ScratchPage.Code.Operand
import ScratchPage.Proofs.Lexical.Context

/-!
# Operands as phrases

The code of every operand can stand wherever an expression can: it is read on its own, closes the
brackets it opens, and leaves the function around it as it was. The only operand that waits is the
test for the mouse pointer, so an operand has an `await` exactly when it holds such a test.
-/

namespace ScratchPage
set_option autoImplicit false

/-- The code of the operand has an `await`. -/
def Operand.awaits : Operand → Bool
  | .touchingMouse => true
  | .binary _ left right => left.awaits || right.awaits
  | .not operand => operand.awaits
  | .math _ operand => operand.awaits
  | .randomBetween low high => low.awaits || high.awaits
  | .join left right => left.awaits || right.awaits
  | .contains whole part => whole.awaits || part.awaits
  | .length whole => whole.awaits
  | .letter index whole => whole.awaits || index.awaits
  | .listItem _ index => index.awaits
  | .listIndex _ item => item.awaits
  | .listContains _ item => item.awaits
  | .asNumber reading => reading.awaits
  | _ => Bool.false

/-- The operands that stand in the code of an operand. -/
def Operand.children : Operand → List Operand
  | .binary _ left right => [left, right]
  | .not operand => [operand]
  | .math _ operand => [operand]
  | .randomBetween low high => [low, high]
  | .join left right => [left, right]
  | .contains whole part => [whole, part]
  | .length whole => [whole]
  | .letter index whole => [index, whole]
  | .listItem _ index => [index]
  | .listIndex _ item => [item]
  | .listContains _ item => [item]
  | .asNumber reading => [reading]
  | _ => []

/-- Induction over operands with one case for all of them. -/
theorem Operand.children_induction {p : Operand → Prop}
    (step : ∀ operand : Operand, (∀ child ∈ operand.children, p child) → p operand) (operand : Operand) :
    p operand := by
  induction operand with
  | binary _ left right first second | randomBetween left right first second | join left right first second
  | contains left right first second | letter left right first second =>
    exact step _ (List.forall_mem_cons.2 ⟨first, List.forall_mem_singleton.2 second⟩)
  | not _ inner | math _ _ inner | length _ inner | listItem _ _ inner | listIndex _ _ inner
  | listContains _ _ inner | asNumber _ inner => exact step _ (List.forall_mem_singleton.2 inner)
  | _ => exact step _ (List.forall_mem_nil _)

namespace Lexical

/-- Every operand is a phrase. -/
theorem phrase_operand (operand : Operand) : Phrase operand.code operand.awaits := by
  induction operand using Operand.children_induction with
  | step operand phrases =>
    -- The operands and values in the code are passed over as phrases, and `rfl` reads the fixed texts.
    obtain ⟨_, _, inner⟩ := Phrase.all_passed phrases
    obtain ⟨_, _, quoted⟩ := Phrase.all_passed fun text (_ : True) => .quoted text
    obtain ⟨_, _, number⟩ := Phrase.all_passed fun value (_ : True) => .number value
    obtain ⟨_, _, comment⟩ := Phrase.all_passed fun text (_ : True) => .comment text
    cases operand with
    | binary sort _ _ | math sort _ | costumeName sort | costumeNumber sort =>
      cases sort <;>
      · simp only [Operand.children, List.forall_mem_cons] at inner
        apply Phrase.of_modes
        intro async base marked outer sound
        simp only [Operand.code, Operator.sign, MathFunction.around, Wearer.code, pass_append, pass_singleton,
          inner, Operand.awaits, Context.await_or, Context.await_false]
        repeat rw [Fragment.chars_fixed]
        exact ⟨rfl, rfl⟩
    | _ =>
      simp only [Operand.children, List.forall_mem_cons] at inner
      apply Phrase.of_modes
      intro async base marked outer sound
      simp only [Operand.code, Operand.listCode, Operand.randomFunction, List.cons_append, pass, pass_append,
        inner, quoted, number, comment, Operand.awaits, Context.await_or, Context.await_false, Context.await_true]
      repeat rw [Fragment.chars_fixed]
      exact ⟨rfl, rfl⟩

end Lexical

end ScratchPage
