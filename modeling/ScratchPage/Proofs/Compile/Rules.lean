import ScratchPage.Proofs.Compile.Lockstep

/-!
# The rules of the compiler, related

In one scope, and for results that are equal, the rules relate computations of two kinds as soon as the
relation is kept by steps in sequence: what is shown here once holds for outcomes and for every other
reading of the rules.
-/

namespace ScratchPage.Compile
set_option autoImplicit false

/-- A relation between computations of two kinds with the same results that is kept by steps in
sequence and holds of the failures with the allowed errors. -/
structure Respects {m n : Type → Type} [Compiling m] [Compiling n]
    (related : {α : Type} → m α → n α → Prop) (allowed : CompileError → Prop) : Prop where
  pure : ∀ {α : Type} (a : α), related (Pure.pure a) (Pure.pure a)
  bind : ∀ {α β : Type} {x : m α} {y : n α} {f : α → m β} {g : α → n β},
    related x y → (∀ a, related (f a) (g a)) → related (x >>= f) (y >>= g)
  report : ∀ d : Diagnostic, related (Compiling.report d) (Compiling.report d)
  fail : ∀ {α : Type} {e : CompileError}, allowed e →
    related (Compiling.fail e : m α) (Compiling.fail e : n α)
  isLocal : ∀ {e : CompileError}, e.isLocal = true → allowed e

namespace Respects

variable {m n : Type → Type} [Compiling m] [Compiling n]
variable {related : {α : Type} → m α → n α → Prop} {allowed : CompileError → Prop}
variable (respects : Respects (m := m) (n := n) related allowed)

include respects

/-- A relation that steps respect is a lockstep in which all results agree. -/
theorem lockstep : Lockstep (m := m) (n := n) True (fun _ x y => related x y) allowed where
  pure := by
    intro α R a b agrees
    rw [R.eq trivial agrees]
    exact respects.pure b
  bind := by
    intro α β R S x y f g first next
    exact respects.bind first fun a => next a a (R.refl a)
  report := respects.report
  fail := respects.fail
  isLocal := respects.isLocal

section

variable {scope : Scope} {owner : Block} {sub₁ : BlockId → m Operand} {sub₂ : BlockId → n Operand}
variable (subs : ∀ id, owner.Holds id → related (sub₁ id) (sub₂ id))
variable (lookups : ∀ id e, owner.Holds id → scope.target.graph.get id = .error e → allowed e)

include subs lookups

theorem choice (slot : String) (menu : Menu) :
    related (Compile.choice scope sub₁ owner slot menu)
      (Compile.choice scope sub₂ owner slot menu) :=
  respects.lockstep.choice subs (fun id _ found =>
    .refl (fun e => lookups id e (Block.holds_of_input? found rfl)) fun _ _ => rfl) menu

/-- The rule for a value. -/
theorem valueOf : related (Compile.valueOf scope sub₁ owner) (Compile.valueOf scope sub₂ owner) :=
  respects.lockstep.valueOf (.refl scope) subs fun slot menu _ =>
    respects.choice subs lookups slot menu

/-- The rule for a statement. -/
theorem statementOf {stack₁ : BlockId → m (List Statement)} {stack₂ : BlockId → n (List Statement)}
    (bodies : ∀ id, owner.Holds id → related (stack₁ id) (stack₂ id)) :
    related (Compile.statementOf scope sub₁ stack₁ owner)
      (Compile.statementOf scope sub₂ stack₂ owner) :=
  respects.lockstep.statementOf (.refl scope) subs
    (fun slot menu _ => respects.choice subs lookups slot menu) bodies

end

/-- The rule for a chain. -/
theorem chainOf {graph : Graph} {start : Option BlockId} {one₁ : BlockId → m Statement}
    {one₂ : BlockId → n Statement} (errors : ∀ e, graph.chain start = .error e → allowed e)
    (ones : ∀ blocks, graph.chain start = .ok blocks → ∀ block ∈ blocks,
      related (one₁ block.id) (one₂ block.id)) :
    related (Compile.chainOf graph one₁ start) (Compile.chainOf graph one₂ start) :=
  respects.lockstep.chainOf
    (.refl errors fun blocks found => List.forall₂_same.2 (ones blocks found))

/-- The rule for the scripts of a target. -/
theorem scriptsOf {target : Target} {body₁ : Scope → Option BlockId → m (List Statement)}
    {body₂ : Scope → Option BlockId → n (List Statement)}
    (bodies : ∀ scope : Scope, scope.target = target → ∀ block ∈ target.graph.blocks,
      related (body₁ scope block.next) (body₂ scope block.next))
    (signatures : ∀ block ∈ target.graph.blocks, ∀ e,
      definedSignature target.graph block = .error e → allowed e)
    (topLevel : ∀ block ∈ target.graph.topLevel, block ∈ target.graph.blocks)
    (procedures : ∀ e, definedProcedures target.graph target.graph.topLevel = .error e → allowed e) :
    related (Compile.scriptsOf body₁ target) (Compile.scriptsOf body₂ target) := by
  refine respects.lockstep.scriptsOf rfl (.refl procedures fun _ _ => rfl) ?_
  intro s₁ s₂ alike is₁ is₂
  refine List.forall₂_same.2 fun block top => ?_
  have mem := topLevel block top
  refine respects.lockstep.script (fun s s' alike is is' => ?_)
    (.refl (signatures block mem) fun _ _ => rfl) alike is₁ is₂
  obtain ⟨t, procedures, signature⟩ := s
  obtain ⟨t', procedures', signature'⟩ := s'
  obtain ⟨-, rfl, rfl⟩ := alike
  cases is
  cases is'
  exact bodies _ rfl block mem

end Respects

end ScratchPage.Compile
