import ScratchPage.Compile.Target
import ScratchPage.Proofs.Compile.Outcome
import ScratchPage.Proofs.Compile.Rules

/-!
# What stops a compilation

A target fails to compile for three reasons only: something is wrong with one of its blocks, a
reference names no block, or the references lead around a cycle. The compiler keeps the blocks it is
in the middle of; each of them leads to the block it looks at, so meeting one of them again is a cycle.
-/

namespace ScratchPage
set_option autoImplicit false

open Relation

namespace Compile

/-- Something is wrong with a block or with the references between blocks. -/
def Explained (graph : Graph) (e : CompileError) : Prop := e.isLocal = true ∨ graph.Broken e

/-- The computation fails with explained errors only. The second computation plays no part. -/
def FailsExplained (graph : Graph) {α : Type} (x _ : Outcome α) : Prop :=
  ∀ e, x.result = .error e → Explained graph e

/-- Steps in sequence fail with explained errors if each of them does. -/
theorem failsExplained_respects (graph : Graph) :
    Respects (m := Outcome) (n := Outcome) (FailsExplained graph) (Explained graph) where
  pure a := by
    intro e failed
    cases failed
  bind first next := by
    intro e failed
    rcases Outcome.bind_eq_error.1 failed with failed | ⟨a, _, failed⟩
    · exact first e failed
    · exact next a e failed
  report d := by
    intro e failed
    cases failed
  fail explained := by
    intro e failed
    cases failed
    exact explained
  isLocal isLocal := .inl isLocal

/-- Every block in the middle of whose compilation this is leads to the block. -/
structure Within (graph : Graph) (active : List BlockId) (id : BlockId) : Prop where
  path : ∀ a ∈ active, TransGen graph.Edge a id
  referenced : graph.find? id = none → graph.Referenced id

/-- What a block holds is within the blocks that the block is within, and the block itself. -/
theorem Within.step {graph : Graph} {active : List BlockId} {id held : BlockId} {block : Block}
    (within : Within graph active id) (found : graph.find? id = some block) (holds : block.Holds held) :
    Within graph (id :: active) held := by
  have edge : graph.Edge id held := ⟨block, found, .inr holds⟩
  refine ⟨fun a mem => ?_, fun _ => edge.referenced⟩
  rcases List.mem_cons.1 mem with rfl | mem
  · exact .single edge
  · exact (within.path a mem).tail edge

/-- The blocks of a chain are within what its start is within. -/
theorem Within.chain {graph : Graph} {active : List BlockId} {start : BlockId} {blocks : List Block}
    (within : Within graph active start) (walked : graph.walk [] start = .ok blocks) :
    ∀ block ∈ blocks, Within graph active block.id := by
  intro block mem
  obtain ⟨found, reach⟩ := Graph.walk_reaches walked block mem
  refine ⟨fun a active => (within.path a active).trans_left reach, fun lost => ?_⟩
  rw [found] at lost
  cases lost

theorem lookup_explained {graph : Graph} {id : BlockId} {block : Block}
    (found : graph.find? id = some block) :
    ∀ held e, block.Holds held → graph.get held = .error e → Explained graph e := by
  intro held e holds failed
  have edge : graph.Edge id held := ⟨block, found, .inr holds⟩
  exact .inr (Graph.broken_of_get failed edge.referenced)

/-! ## Values and statements -/

section

variable {scope : Scope} {active : List BlockId} {id : BlockId}

/-- The step for values: a failure is explained by a missing block, by a cycle through the block, or by what the
block holds. -/
theorem value_explained (within : Within scope.target.graph active id) :
    FailsExplained scope.target.graph (value scope active id) (value scope active id) := by
  fun_induction value scope active id with
  | case1 active id lost =>
    intro e failed
    cases failed
    exact .inr (.lost lost (within.referenced lost))
  | case2 active id block found seen =>
    intro e failed
    cases failed
    exact .inr (.cycle (within.path id seen))
  | case3 active id block found seen ih =>
    have subs : ∀ held, block.Holds held → FailsExplained scope.target.graph
        (value scope (id :: active) held) (value scope (id :: active) held) :=
      fun held holds => ih held (within.step found holds)
    exact (failsExplained_respects _).valueOf subs (lookup_explained found)

theorem chainOf_explained {graph : Graph} {one : BlockId → Outcome Statement} {start : BlockId}
    (within : Within graph active start)
    (ones : ∀ id, Within graph active id → FailsExplained graph (one id) (one id)) :
    FailsExplained graph (chainOf graph one (some start)) (chainOf graph one (some start)) := by
  refine (failsExplained_respects graph).chainOf (fun e failed => ?_) fun blocks walked block mem => ?_
  · exact .inr (Graph.chain_broken failed within.referenced)
  · exact ones block.id (within.chain walked block mem)

/-- The step for statements, with the chains in their slots. -/
theorem statement_explained (within : Within scope.target.graph active id) :
    FailsExplained scope.target.graph (statement scope active id) (statement scope active id) := by
  fun_induction statement scope active id with
  | case1 active id lost =>
    intro e failed
    cases failed
    exact .inr (.lost lost (within.referenced lost))
  | case2 active id block found seen =>
    intro e failed
    cases failed
    exact .inr (.cycle (within.path id seen))
  | case3 active id block found seen ih =>
    refine (failsExplained_respects _).statementOf
      (fun held holds => value_explained (within.step found holds)) (lookup_explained found) ?_
    intro start holds
    exact chainOf_explained (within.step found holds) ih

/-- A chain fails with explained errors if something refers to its first block. -/
theorem chain_explained {start : Option BlockId}
    (referenced : ∀ id, start = some id → scope.target.graph.Referenced id) :
    FailsExplained scope.target.graph (chain scope start) (chain scope start) := by
  cases start with
  | none =>
    intro e failed
    cases failed
  | some id =>
    have within : Within scope.target.graph [] id := ⟨by simp, fun _ => referenced id rfl⟩
    exact chainOf_explained within fun _ within => statement_explained within

end

/-! ## Scripts and targets -/

/-- A definition without a signature is itself at fault, or refers to a prototype that is not there. -/
theorem definedSignature_explained {graph : Graph} {block : Block} (mem : block ∈ graph.blocks) :
    ∀ e, definedSignature graph block = .error e → Explained graph e := by
  intro e failed
  unfold definedSignature at failed
  cases found : (block.input? "custom_block").bind Input.blockId? with
  | none =>
    simp only [found] at failed
    cases failed
    exact .inl rfl
  | some id =>
    obtain ⟨input, slot, held⟩ := Option.bind_eq_some_iff.1 found
    have referenced : graph.Referenced id :=
      ⟨block, mem, .inr ⟨_, input, Block.mem_of_input? slot, held⟩⟩
    cases looked : graph.get id with
    | error e' =>
      simp only [found, looked] at failed
      cases failed
      exact .inr (Graph.broken_of_get looked referenced)
    | ok prototype =>
      cases signed : prototype.signature with
      | some signature => simp [found, looked, signed] at failed
      | none =>
        simp only [found, looked, signed] at failed
        cases failed
        exact .inl rfl

/-- The run over all definitions of a target. -/
theorem definedProcedures_explained {graph : Graph} {blocks : List Block}
    (all : ∀ block ∈ blocks, block ∈ graph.blocks) :
    ∀ e, definedProcedures graph blocks = .error e → Explained graph e := by
  intro e failed
  induction blocks with
  | nil => cases failed
  | cons block blocks ih =>
    have rest := ih fun b mem => all b (by simp [mem])
    unfold definedProcedures at failed
    split at failed
    · cases signed : definedSignature graph block with
      | error e' =>
        simp only [signed] at failed
        cases failed
        exact definedSignature_explained (all block (by simp)) e signed
      | ok signature =>
        cases more : definedProcedures graph blocks with
        | ok codes => simp [signed, more, Except.map] at failed
        | error e' =>
          simp only [signed, more, Except.map, Except.error.injEq] at failed
          exact rest (failed ▸ more)
    · exact rest failed

/-- A target fails to compile for one of three reasons: a fault of a block, a reference to no block, or
a cycle. -/
theorem target_explained {target : Target} {e : CompileError}
    (failed : (Compile.target target).result = .error e) : Explained target.graph e := by
  have scripts : FailsExplained target.graph (scripts target) (scripts target) := by
    refine (failsExplained_respects target.graph).scriptsOf ?_
      (fun block mem => definedSignature_explained mem) (fun block mem => Graph.mem_topLevel mem)
      (definedProcedures_explained fun block mem => Graph.mem_topLevel mem)
    rintro scope rfl block mem
    exact chain_explained fun id after => ⟨block, mem, .inl after⟩
  rcases Outcome.bind_eq_error.1 failed with failed | ⟨found, _, failed⟩
  · exact scripts e failed
  · cases failed

/-! ## Targets of projects -/

end Compile

/-- The errors that can end the compilation of a target whose references have been checked. -/
def CompileError.endsTarget : CompileError → Bool
  | .cyclicChain .. => true
  | .missingField .. => true
  | .malformedInput .. => true
  | .unknownMathFunction .. => true
  | .unknownKey .. => true
  | .invalidChoice .. => true
  | .unknownBlock .. => false
  | .malformedField .. => false
  | .malformedProject .. => false
  | .duplicateStage .. => false

namespace Compile

/-- Where no reference is lost, the errors that are left end the compilation of a target. -/
theorem endsTarget_of_explained {graph : Graph} {e : CompileError} (closed : graph.Closed)
    (explained : Explained graph e) : e.endsTarget = true := by
  rcases explained with isLocal | broken
  · cases e <;> first | rfl | cases isLocal
  · cases broken with
    | cycle => rfl
    | lost lost referenced =>
      obtain ⟨held, found⟩ := closed.find? referenced
      rw [found] at lost
      cases lost

/-- In a project that was read, every reference of a block names a block of the same target, and the
compilation of a target is never ended by a reference or by a fault of reading. -/
theorem parsed_target_resolves (source : String) (project : Project)
    (read : Project.ofText source = .ok project) (target : Target) (mem : target ∈ project.targets) :
    (∀ block ∈ target.graph.blocks,
      (∀ id, block.next = some id → (target.graph.find? id).isSome = true) ∧
      ∀ slot input, (slot, input) ∈ block.inputs →
        (∀ id, input.payload = .block id → (target.graph.find? id).isSome = true) ∧
        ∀ id, input.shadow = some (.block id) → (target.graph.find? id).isSome = true) ∧
    ∀ e, (Compile.target target).result = .error e → e.endsTarget = true := by
  obtain ⟨json, readTarget⟩ := Project.ofJson_of_mem read target mem
  obtain ⟨closed, proper⟩ := Target.closed_of_ofJson readTarget
  have found : ∀ block ∈ target.graph.blocks, ∀ id ∈ block.references,
      (target.graph.find? id).isSome = true := by
    intro block mem id reference
    exact Option.isSome_iff_exists.2 (closed block mem id reference)
  refine ⟨fun block inGraph => ⟨?_, ?_⟩, fun e failed => ?_⟩
  · intro id after
    exact found block inGraph id (Block.mem_references (.inl after))
  · intro slot input inBlock
    refine ⟨fun id payload => ?_, fun id shadow => ?_⟩
    · have primary : input.blockId? = some id := by simp [Input.blockId?, payload, Payload.blockId?]
      have holds : block.Holds id := ⟨slot, input, inBlock, primary⟩
      exact found block inGraph id (Block.mem_references (.inr holds))
    · obtain ⟨cover, payload⟩ := proper block inGraph (slot, input) inBlock _ shadow
      exact found block inGraph id (Block.mem_references_of_shadow inBlock payload shadow)
  · exact endsTarget_of_explained closed (target_explained failed)

/-- The block at which the compilation of a target met a cycle. -/
def cycleOf? (t : Target) : Option BlockId :=
  match (target t).result with
  | .error (.cyclicChain _ id) => some id
  | _ => none

/-- A cycle that is met is what the compilation of the target ends with. -/
theorem result_of_cycleOf? {t : Target} {id : BlockId} (met : cycleOf? t = some id) :
    ∃ name, (target t).result = .error (.cyclicChain name id) := by
  unfold cycleOf? at met
  split at met
  · rename_i name found failed
    cases met
    exact ⟨name, failed⟩
  · cases met

/-- A chain that leads back into itself, with a slot whose block covers another block. -/
def loopSource : String :=
  "\x7b\"targets\":[\x7b\"name\":\"S\",\"isStage\":false,\"blocks\":\x7b" ++
  "\"a\":\x7b\"opcode\":\"event_whenflagclicked\",\"next\":\"b\",\"topLevel\":true\x7d," ++
  "\"b\":\x7b\"opcode\":\"x\",\"next\":\"b\",\"inputs\":\x7b\"I\":[3,\"a\",\"b\"]\x7d\x7d\x7d\x7d]\x7d"

/-- The blocks at which the compilation of the targets of a source met a cycle. -/
def cyclesOf? (source : String) : Option (List (Option BlockId)) :=
  match Project.ofText source with
  | .ok project => some (project.targets.map cycleOf?)
  | .error _ => none

/-- A cycle of a source with one target is found by evaluation. -/
theorem exists_of_cyclesOf? {source : String} {id : BlockId} (met : cyclesOf? source = some [some id]) :
    ∃ project target name, Project.ofText source = .ok project ∧ target ∈ project.targets ∧
      (Compile.target target).result = .error (.cyclicChain name id) := by
  unfold cyclesOf? at met
  split at met
  · rename_i project read
    have met : some id ∈ project.targets.map cycleOf? := by
      rw [Option.some.inj met]
      exact List.mem_singleton.2 rfl
    obtain ⟨target, mem, met⟩ := List.mem_map.1 met
    obtain ⟨name, failed⟩ := result_of_cycleOf? met
    exact ⟨project, target, name, read, mem, failed⟩
  · cases met

/-- A chain that leads back into itself is read, and its cycle is what ends the compilation. -/
theorem parsed_target_resolves_loop :
    ∃ project target name, Project.ofText loopSource = .ok project ∧ target ∈ project.targets ∧
      (Compile.target target).result = .error (.cyclicChain name ⟨"b"⟩) ∧
      (CompileError.cyclicChain name ⟨"b"⟩).endsTarget = true ∧
      ∀ block ∈ target.graph.blocks, ∀ id, block.next = some id →
        (target.graph.find? id).isSome = true := by
  have met : cyclesOf? loopSource = some [some ⟨"b"⟩] := by decide +kernel
  obtain ⟨project, target, name, read, mem, failed⟩ := exists_of_cyclesOf? met
  have resolves := parsed_target_resolves loopSource project read target mem
  exact ⟨project, target, name, read, mem, failed, resolves.2 _ failed,
    fun block inGraph => (resolves.1 block inGraph).1⟩

end Compile

end ScratchPage
