import ScratchPage.Diagnostic
import ScratchPage.Error

/-!
# Outcomes

The outcome of a compilation step is a result or an error, together with the findings raised on the
way. Steps in sequence raise their findings one after the other; an error ends the sequence and keeps
the findings raised before it. The rules of the compiler are written for any computation that can
raise findings and fail; outcomes are the least such computations.
-/

namespace ScratchPage
set_option autoImplicit false

/-- Computations that raise findings and can end with an error. -/
class Compiling (m : Type → Type) extends Monad m where
  fail {α : Type} : CompileError → m α
  report : Diagnostic → m Unit

namespace Compiling

variable {m : Type → Type} [Compiling m] {α β : Type}

/-- A result that may be an error, as a step that raises nothing. -/
def attempt : Except CompileError α → m α
  | .ok a => pure a
  | .error e => fail e

/-- Runs a step on every item in order. -/
def forAll (step : α → m β) : List α → m (List β)
  | [] => pure []
  | a :: rest => do
    let b ← step a
    let bs ← forAll step rest
    return b :: bs

end Compiling

/-- A result or an error, with the findings raised on the way. -/
structure Outcome (α : Type) where
  result : Except CompileError α
  raised : Log

namespace Outcome

variable {α β : Type}

/-- Continues with the result of a step. -/
def andThen (step : Outcome α) (next : α → Outcome β) : Outcome β :=
  match step.result with
  | .ok a => ⟨(next a).result, step.raised ++ (next a).raised⟩
  | .error e => ⟨.error e, step.raised⟩

instance : Compiling Outcome where
  pure a := ⟨.ok a, []⟩
  bind := andThen
  fail e := ⟨.error e, []⟩
  report d := ⟨.ok (), [d]⟩

end Outcome

end ScratchPage
