import Mathlib.Data.Finset.Basic
import ScratchPage.Proofs.Compile.Errors

/-!
# Cycles between blocks

The compiler is given the blocks in the middle of whose compilation it is. The same rules can be run
with one set of such blocks that is changed on the way: a block is put into the set when its
compilation begins and taken out when it ends, with or without an error. Run like this to a limited
depth of nesting, the compilation of a target has the same outcome and leaves the set as it was, for
every depth above the number of blocks. So the compilation ends on every graph, and a cycle is
reported only for a block that lies on one.
-/

namespace ScratchPage
set_option autoImplicit false

/-- A computation that changes the set of the blocks that are being compiled. It has no outcome when
blocks are nested deeper than it can follow. -/
def Tracked (α : Type) : Type := Finset BlockId → Option (Outcome α × Finset BlockId)

namespace Tracked

variable {α β : Type}

def andThen (x : Tracked α) (next : α → Tracked β) : Tracked β := fun active =>
  (x active).bind fun (first, after) =>
    match first.result with
    | .ok a => (next a after).map fun (second, last) =>
        (⟨second.result, first.raised ++ second.raised⟩, last)
    | .error e => some (⟨.error e, first.raised⟩, after)

instance : Compiling Tracked where
  pure a := fun active => some (pure a, active)
  bind := andThen
  fail e := fun active => some (Compiling.fail e, active)
  report d := fun active => some (Compiling.report d, active)

/-- The compilation of a block: it is in the set until its inner computation ends. -/
def nested (target : String) (id : BlockId) (inner : Tracked α) : Tracked α := fun active =>
  if id ∈ active then some (Compiling.fail (.cyclicChain target id), active)
  else (inner (insert id active)).map fun last => (last.1, last.2.erase id)

/-- The operand for a block, at most `depth` blocks deep. -/
def value (scope : Scope) : Nat → BlockId → Tracked Operand
  | 0, _ => fun _ => none
  | depth + 1, id =>
    match scope.target.graph.find? id with
    | none => Compiling.fail (.unknownBlock scope.target.name id)
    | some block => nested scope.target.name id (Compile.valueOf scope (value scope depth) block)

/-- The statement for a block, at most `depth` blocks deep. -/
def statement (scope : Scope) : Nat → BlockId → Tracked Statement
  | 0, _ => fun _ => none
  | depth + 1, id =>
    match scope.target.graph.find? id with
    | none => Compiling.fail (.unknownBlock scope.target.name id)
    | some block =>
      nested scope.target.name id
        (Compile.statementOf scope (value scope depth)
          (fun start => Compile.chainOf scope.target.graph (statement scope depth) (some start)) block)

/-- The statements for a chain, each at most `depth` blocks deep. -/
def chain (depth : Nat) (scope : Scope) (start : Option BlockId) : Tracked (List Statement) :=
  Compile.chainOf scope.target.graph (statement scope depth) start

/-- The descriptor of a target, whose blocks are followed `depth` deep. -/
def target (depth : Nat) (t : Target) : Tracked Descriptor := do
  return Compile.descriptor t (← Compile.scriptsOf (chain depth) t)

/-! ## The set is restored -/

/-- The computation has this outcome and leaves the set as it was. -/
def Restores (active : Finset BlockId) {α : Type} (x : Tracked α) (y : Outcome α) : Prop :=
  x active = some (y, active)

/-- Steps in sequence restore the set if each of them does. -/
theorem restores_respects (active : Finset BlockId) :
    Compile.Respects (m := Tracked) (n := Outcome) (Restores active) (fun _ => True) where
  pure a := rfl
  bind := by
    intro α β x y f g first next
    change (x.andThen f) active = some (y.andThen g, active)
    have first : x active = some (y, active) := first
    rw [andThen, first, Outcome.andThen]
    simp only [Option.bind_some]
    cases y.result with
    | error e => rfl
    | ok a =>
      have next : f a active = some (g a, active) := next a
      simp [next]
  report d := rfl
  fail _ := rfl
  isLocal _ := trivial

/-- A nested computation removes the block that it has added. -/
theorem restores_nested {target : String} {id : BlockId} {active : List BlockId} {inner : Tracked α}
    {outcome : Outcome α} (new : id ∉ active)
    (restores : Restores (id :: active).toFinset inner outcome) :
    Restores active.toFinset (nested target id inner) outcome := by
  have new : id ∉ active.toFinset := by simpa using new
  unfold Restores at restores ⊢
  rw [List.toFinset_cons] at restores
  rw [nested, if_neg new, restores, Option.map_some, Finset.erase_insert new]

theorem restores_met {target : String} {id : BlockId} {active : List BlockId} {inner : Tracked α}
    (met : id ∈ active) :
    Restores active.toFinset (nested target id inner) (Compiling.fail (.cyclicChain target id)) := by
  have met : id ∈ active.toFinset := by simpa using met
  rw [Restores, nested, if_pos met]

section

variable {scope : Scope} {active : List BlockId} {id : BlockId} {depth : Nat}

/-- The compilation of a value ends above this depth, whatever the blocks refer to. -/
theorem restores_value (enough : scope.target.graph.unvisited active < depth) :
    Restores active.toFinset (value scope depth id) (Compile.value scope active id) := by
  obtain ⟨depth, rfl⟩ : ∃ d, depth = d + 1 := ⟨depth - 1, by omega⟩
  fun_induction Compile.value scope active id generalizing depth with
  | case1 active id lost =>
    rw [value, lost]
    rfl
  | case2 active id block found met =>
    rw [value, found]
    exact restores_met met
  | case3 active id block found new ih =>
    have fewer := Graph.unvisited_cons_lt found new
    obtain ⟨depth, rfl⟩ : ∃ d, depth = d + 1 := ⟨depth - 1, by omega⟩
    rw [value, found]
    refine restores_nested new ((restores_respects _).valueOf (fun held _ => ?_) fun _ _ _ _ => trivial)
    exact ih held depth (by omega)

/-- The compilation of a statement ends above this depth, whatever the blocks refer to. -/
theorem restores_statement (enough : scope.target.graph.unvisited active < depth) :
    Restores active.toFinset (statement scope depth id) (Compile.statement scope active id) := by
  obtain ⟨depth, rfl⟩ : ∃ d, depth = d + 1 := ⟨depth - 1, by omega⟩
  fun_induction Compile.statement scope active id generalizing depth with
  | case1 active id lost =>
    rw [statement, lost]
    rfl
  | case2 active id block found met =>
    rw [statement, found]
    exact restores_met met
  | case3 active id block found new ih =>
    have fewer := Graph.unvisited_cons_lt found new
    obtain ⟨depth, rfl⟩ : ∃ d, depth = d + 1 := ⟨depth - 1, by omega⟩
    rw [statement, found]
    refine restores_nested new ((restores_respects _).statementOf
      (fun held _ => restores_value (by omega)) (fun _ _ _ _ => trivial) fun start _ => ?_)
    refine (restores_respects _).chainOf (fun _ _ => trivial) fun _ _ block _ => ?_
    exact ih block.id depth (by omega)

end

theorem unvisited_le (graph : Graph) (active : List BlockId) :
    graph.unvisited active ≤ graph.blocks.length := List.length_filter_le _ _

/-- No nesting is deeper than the blocks of the target are many, so this depth is enough. -/
theorem restores_target {t : Target} {depth : Nat} (enough : t.graph.blocks.length < depth) :
    Restores ∅ (target depth t) (Compile.target t) := by
  have respects := restores_respects ∅
  have chains : ∀ scope : Scope, scope.target = t → ∀ block ∈ t.graph.blocks,
      Restores ∅ (chain depth scope block.next) (Compile.chain scope block.next) := by
    rintro scope rfl block -
    have fits := unvisited_le scope.target.graph []
    refine respects.chainOf (fun _ _ => trivial) fun _ _ held _ => ?_
    have restored : Restores ([] : List BlockId).toFinset (statement scope depth held.id)
        (Compile.statement scope [] held.id) := restores_statement (by omega)
    simpa using restored
  have scripts := respects.scriptsOf chains (fun _ _ _ _ => trivial)
    (fun block mem => Graph.mem_topLevel mem) fun _ _ => trivial
  exact respects.bind scripts fun found => respects.pure _

end Tracked

namespace Compile

/-- The compilation of a target ends on every graph: at any depth above the number of blocks it has its
outcome, and around every value and every statement the set of the blocks being compiled is restored.
A cycle is reported only for a block that lies on one, so never in a graph without cycles. -/
theorem target_cycles (t : Target) :
    (∀ depth, t.graph.blocks.length < depth →
      (∀ scope : Scope, scope.target = t → ∀ (active : List BlockId) (id : BlockId),
        Tracked.value scope depth id active.toFinset =
          some (value scope active id, active.toFinset) ∧
        Tracked.statement scope depth id active.toFinset =
          some (statement scope active id, active.toFinset)) ∧
      Tracked.target depth t ∅ = some (target t, ∅)) ∧
    (∀ name id, (target t).result = .error (.cyclicChain name id) → t.graph.OnCycle id) ∧
    ((∀ id, ¬ t.graph.OnCycle id) →
      ∀ name id, (target t).result ≠ .error (.cyclicChain name id)) := by
  have onCycle : ∀ name id, (target t).result = .error (.cyclicChain name id) → t.graph.OnCycle id := by
    intro name id failed
    rcases target_explained failed with isLocal | broken
    · cases isLocal
    · cases broken
      assumption
  refine ⟨fun depth enough => ⟨?_, Tracked.restores_target enough⟩, onCycle, ?_⟩
  · rintro scope rfl active id
    have fits := Tracked.unvisited_le scope.target.graph active
    exact ⟨Tracked.restores_value (by omega), Tracked.restores_statement (by omega)⟩
  · intro acyclic name id failed
    exact acyclic id (onCycle name id failed)

/-- A block with the given inputs and next block; the hat is the top of its chain. -/
def linkedBlock (id : String) (opcode : Opcode) (inputs : List (String × String))
    (next : Option String) : Block :=
  { id := ⟨id⟩, opcode, inputs := inputs.map fun (slot, held) => (slot, ⟨.block ⟨held⟩, none⟩)
    fields := [], next := next.map BlockId.mk, topLevel := id == "hat", x := 0, y := 0
    signature := none, source := .null }

/-- A sprite with these blocks. -/
def spriteOf (blocks : List Block) : Target :=
  { name := "S", isStage := false, x := 0, y := 0, size := 100, direction := 90, rotationStyle := ""
    visible := true, costumes := [], currentCostume := 0, vars := [], lists := [], graph := ⟨"S", blocks⟩ }

/-- A sum of a block with itself, which two blocks of a chain hold. -/
def sharedSum : Target :=
  spriteOf
    [linkedBlock "hat" (.hat .whenFlagClicked) [] (some "first"),
     linkedBlock "first" (.command .moveSteps) [("STEPS", "sum")] (some "second"),
     linkedBlock "second" (.command .turnLeft) [("DEGREES", "sum")] none,
     linkedBlock "sum" (.reporter .add) [("NUM1", "x"), ("NUM2", "x")] none,
     linkedBlock "x" (.reporter .xPosition) [] none]

/-- A sum that holds itself. -/
def selfSum : Target :=
  spriteOf
    [linkedBlock "hat" (.hat .whenFlagClicked) [] (some "first"),
     linkedBlock "first" (.command .moveSteps) [("STEPS", "sum")] none,
     linkedBlock "sum" (.reporter .add) [("NUM1", "x"), ("NUM2", "sum")] none,
     linkedBlock "x" (.reporter .xPosition) [] none]

/-- A block that is held four times is no cycle, and a sum that holds itself is one. -/
theorem target_cycles_sums :
    Tracked.target 6 sharedSum ∅ = some (target sharedSum, ∅) ∧
    (∀ name id, (target sharedSum).result ≠ .error (.cyclicChain name id)) ∧
    Tracked.target 5 selfSum ∅ = some (target selfSum, ∅) ∧
    (∃ name, (target selfSum).result = .error (.cyclicChain name ⟨"sum"⟩)) ∧
    selfSum.graph.OnCycle ⟨"sum"⟩ := by
  have acyclic : ∀ id, ¬ sharedSum.graph.OnCycle id :=
    Graph.not_onCycle_of_rank (fun id => ["x", "sum", "second", "first", "hat"].idxOf id.name) (by decide)
  obtain ⟨name, failed⟩ := result_of_cycleOf? (by decide +kernel : cycleOf? selfSum = some ⟨"sum"⟩)
  exact ⟨((target_cycles sharedSum).1 6 (by decide)).2, (target_cycles sharedSum).2.2 acyclic,
    ((target_cycles selfSum).1 5 (by decide)).2, ⟨name, failed⟩, (target_cycles selfSum).2.1 _ _ failed⟩

end Compile

end ScratchPage
