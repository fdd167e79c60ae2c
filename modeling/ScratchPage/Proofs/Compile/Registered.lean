import ScratchPage.Proofs.Block.Precedence
import ScratchPage.Proofs.Compile.Linkage
import ScratchPage.Proofs.Compile.Marks
import ScratchPage.Proofs.Lexical.Registrations

/-!
# Top-level blocks and what is registered for them

The top-level blocks of a target are gone through once, in canvas order. A hat that the page knows becomes a
script, whose code registers it once for the event or under the code of the procedure; any other block becomes
no script and raises one diagnostic. So the registrations in the code of a target are those of its hats, in
the same order (`target_registers`).
-/

namespace ScratchPage
set_option autoImplicit false

namespace Outcome

/-- A loop that ends without an error has the results of all its steps and what they raised, in order. -/
theorem parts_of_forAll {α β : Type} {step : α → Outcome β} {items : List α} {found : List β}
    (done : (Compiling.forAll step items : Outcome (List β)).result = .ok found) :
    ∃ parts : List (β × Log),
      List.Forall₂ (fun a part => step a = ⟨.ok part.1, part.2⟩) items parts ∧ found = parts.map (·.1) ∧
      (Compiling.forAll step items : Outcome (List β)).raised = parts.flatMap (·.2) := by
  induction items generalizing found with
  | nil =>
    cases done
    exact ⟨[], .nil, rfl, rfl⟩
  | cons a items ih =>
    obtain ⟨b, first, done⟩ := bind_eq_ok.1 done
    obtain ⟨rest, others, last⟩ := bind_eq_ok.1 done
    cases last
    obtain ⟨parts, each, rfl, raised⟩ := ih others
    refine ⟨(b, (step a).raised) :: parts, .cons ?_ each, rfl, ?_⟩
    · rw [← first]
    · rw [Compiling.forAll, bind_raised first, bind_raised others, raised]
      exact congrArg _ (List.append_nil _)

end Outcome

namespace Compile

open Lexical Outcome

/-- The opcodes of the hats that the page knows. -/
def knownHats : List Opcode :=
  [.hat .whenFlagClicked, .hat .whenBroadcastReceived, .hat .startAsClone, .hat .defineProcedure]

/-- What a hat asks to be registered for: a message by the name in its field, a procedure by the code of its
prototype. -/
inductive Registers (graph : Graph) (block : Block) : Registration → Prop
  | start : block.opcode = .hat .whenFlagClicked → Registers graph block .start
  | message {field : Field} : block.opcode = .hat .whenBroadcastReceived →
      block.field? "BROADCAST_OPTION" = some field → Registers graph block (.message field.value)
  | clone : block.opcode = .hat .startAsClone → Registers graph block .clone
  | procedure {input : Input} {id : BlockId} {prototype : Block} {signature : Signature} :
      block.opcode = .hat .defineProcedure → block.input? "custom_block" = some input →
      input.blockId? = some id → graph.find? id = some prototype → prototype.signature = some signature →
      Registers graph block (.procedure signature.code)

/-- What becomes of a top-level block: its script, if there is one, and what is raised for it. -/
inductive Becomes (graph : Graph) (block : Block) : Option Script × Log → Prop
  | registered {registration : Registration} {script : Script} {raised : Log} :
      block.opcode ∈ knownHats → Registers graph block registration →
      registrations (scriptTokens script) = [registration] → Becomes graph block (some script, raised)
  | silent {diagnostic : Diagnostic} : block.opcode ∉ knownHats → Becomes graph block (none, [diagnostic])

theorem registrations_scriptTokens (script : Script) : registrations (scriptTokens script) = [registrationOf script] := by
  have alone := registrations_script script []
  rwa [List.append_nil] at alone

section

variable {scope : Scope} {block : Block} {found : Option Script} {raised : Log}

/-- A block for which a finding is noted and nothing else done. -/
theorem becomes_of_note {finding : Finding} (unknown : block.opcode ∉ knownHats)
    (done : (note finding >>= fun _ => pure none : Outcome (Option Script)) = ⟨.ok found, raised⟩) :
    Becomes scope.target.graph block (found, raised) := by
  have noted : (note finding >>= fun _ => pure none : Outcome (Option Script)) = ⟨.ok none, [finding.diagnostic]⟩ := rfl
  cases noted.symm.trans done
  exact .silent unknown

theorem becomes_of_procedure (opcode : block.opcode = .hat .defineProcedure)
    (done : procedure chain scope block = ⟨.ok found, raised⟩) :
    Becomes scope.target.graph block (found, raised) := by
  obtain ⟨signature, body, defined, rfl, -⟩ := procedure_yields scope block found (congrArg Outcome.result done)
  obtain ⟨input, id, prototype, slot, isBlock, stands, carried⟩ := definedSignature_eq_ok.1 defined
  exact .registered (by simp [knownHats, opcode]) (.procedure opcode slot isBlock stands carried)
    (registrations_scriptTokens _)

/-- The step for hats: each registers what it says, defines its procedure, or is noted. -/
theorem becomes_of_hat {op : Hat} (opcode : block.opcode = .hat op)
    (done : hat chain scope block op = ⟨.ok found, raised⟩) : Becomes scope.target.graph block (found, raised) := by
  have result := congrArg Outcome.result done
  cases op with
  | whenFlagClicked =>
    obtain ⟨body, -, last⟩ := bind_eq_ok.1 result
    cases last
    exact .registered (by simp [knownHats, opcode]) (.start opcode) (registrations_scriptTokens _)
  | startAsClone =>
    obtain ⟨body, -, last⟩ := bind_eq_ok.1 result
    cases last
    exact .registered (by simp [knownHats, opcode]) (.clone opcode) (registrations_scriptTokens _)
  | whenBroadcastReceived =>
    obtain ⟨field, required, result⟩ := bind_eq_ok.1 result
    obtain ⟨body, -, last⟩ := bind_eq_ok.1 result
    cases last
    have held := requireField_yields block "BROADCAST_OPTION" field required
    exact .registered (by simp [knownHats, opcode]) (.message opcode held) (registrations_scriptTokens _)
  | defineProcedure => exact becomes_of_procedure opcode done
  | whenThisSpriteClicked | whenStageClicked | whenKeyPressed | whenBackdropSwitchesTo | whenGreaterThan =>
    exact becomes_of_note (by simp [knownHats, opcode]) done

/-- The step for top-level blocks: those that are no hats are noted. -/
theorem becomes_of_script (done : script chain scope block = ⟨.ok found, raised⟩) :
    Becomes scope.target.graph block (found, raised) := by
  unfold script at done
  split at done
  next op opcode => exact becomes_of_hat opcode done
  next other =>
    refine becomes_of_note (fun known => ?_) done
    simp only [knownHats, List.mem_cons, List.not_mem_nil, or_false] at known
    rcases known with opcode | opcode | opcode | opcode <;> exact other _ opcode

end

/-- What is registered for the blocks that become scripts, in their order. -/
theorem forall₂_registers {graph : Graph} {blocks : List Block} {parts : List (Option Script × Log)}
    (each : List.Forall₂ (Becomes graph) blocks parts) :
    List.Forall₂ (Registers graph) (blocks.filter fun block => block.opcode ∈ knownHats)
      ((parts.filterMap (·.1)).map registrationOf) := by
  induction each with
  | nil => exact .nil
  | @cons block part blocks parts first _ ih =>
    cases first with
    | registered known registers own =>
      rw [registrations_scriptTokens] at own
      cases own
      rw [List.filter_cons_of_pos (by simpa using known)]
      exact .cons registers ih
    | silent unknown =>
      rw [List.filter_cons_of_neg (by simpa using unknown)]
      exact ih

/-- The scripts of a target are what becomes of its top-level blocks. -/
theorem parts_of_target {t : Target} {d : Descriptor} (compiled : (target t).result = .ok d) :
    ∃ parts, List.Forall₂ (Becomes t.graph) t.graph.topLevel parts ∧ d = descriptor t (parts.filterMap (·.1)) ∧
      (target t).raised = parts.flatMap (·.2) := by
  obtain ⟨found, done, last⟩ := bind_eq_ok.1 compiled
  cases last
  have whole : (target t).raised = (scripts t).raised := (bind_raised done).trans (List.append_nil _)
  obtain ⟨procedures, attempted, later⟩ := bind_eq_ok.1 done
  obtain ⟨all, looped, kept⟩ := bind_eq_ok.1 later
  cases kept
  obtain ⟨parts, each, rfl, raised⟩ := parts_of_forAll looped
  have known : definedProcedures t.graph t.graph.topLevel = .ok procedures := Yields.attempt _ _ attempted
  refine ⟨parts, each.imp fun block part => becomes_of_script, ?_, ?_⟩
  · rw [List.filterMap_map]
    rfl
  · rw [whole, scripts, scriptsOf, bind_raised attempted, bind_raised looped, raised, known]
    exact List.append_nil _

/-- The top-level blocks of a target are taken once each, one before the other on the canvas, however its blocks
are listed. If the target compiles, its scripts and what is raised are what becomes of these blocks one by
one, and the registrations that can be read off its code are those of the hats that the page knows, in the
same order. -/
theorem target_registers {t : Target} (distinct : (t.graph.blocks.map Block.id).Nodup) :
    t.graph.topLevel.Nodup ∧
    (∀ block, block ∈ t.graph.topLevel ↔ block ∈ t.graph.blocks ∧ block.topLevel = true) ∧
    t.graph.topLevel.Pairwise Graph.Precedes ∧
    (∀ blocks, blocks.Perm t.graph.blocks → Graph.topLevel { t.graph with blocks } = t.graph.topLevel) ∧
    ∀ d, (target t).result = .ok d →
      (∃ parts, List.Forall₂ (Becomes t.graph) t.graph.topLevel parts ∧
        d = descriptor t (parts.filterMap (·.1)) ∧ (target t).raised = parts.flatMap (·.2)) ∧
      ∃ all, tokens d.code = some all ∧
        List.Forall₂ (Registers t.graph) (t.graph.topLevel.filter fun block => block.opcode ∈ knownHats)
          (registrations all) := by
  refine ⟨(Graph.nodup_ids_topLevel distinct).of_map _, fun block => Graph.mem_topLevel_iff,
    Graph.pairwise_precedes distinct, fun blocks perm => ?_, fun d compiled => ?_⟩
  · exact (Graph.inOrder_eq_of_perm (perm.symm.filter _)
      (distinct.sublist (List.filter_sublist.map Block.id))).symm
  · obtain ⟨parts, each, rfl, raised⟩ := parts_of_target compiled
    obtain ⟨all, read, same⟩ := registrations_descriptor (descriptor t (parts.filterMap (·.1)))
    refine ⟨⟨parts, each, rfl, raised⟩, all, read, ?_⟩
    rw [same, descriptor_scripts]
    exact forall₂_registers each

/-- A block without inputs at a place on the canvas. -/
def placedBlock (id : String) (opcode : Opcode) (x y : Float) : Block :=
  { linkedBlock id opcode [] none with topLevel := true, x, y }

/-- Two hats on one place, one at a negative zero, a definition, and blocks that are no hats of the page. -/
def scattered : Target :=
  spriteOf
    [placedBlock "loose" (.command .moveSteps) 0 2, placedBlock "b" (.hat .whenFlagClicked) 1 0,
     { placedBlock "define" (.hat .defineProcedure) 1 (-0.0) with
       inputs := [("custom_block", ⟨.block ⟨"prototype"⟩, none⟩)] },
     { linkedBlock "prototype" (.unknown "procedures_prototype") [] none with signature := some walk },
     placedBlock "a" (.hat .startAsClone) 1 0, placedBlock "key" (.hat .whenKeyPressed) 0 0,
     { placedBlock "message" (.hat .whenBroadcastReceived) 5 (-3) with
       fields := [("BROADCAST_OPTION", ⟨"go \"on\"", none⟩)] },
     placedBlock "odd" (.unknown "sound_play") 0 1]

/-- The scripts of the canvas are registered from the top down, and two hats on one place by their names. -/
theorem target_registers_scattered :
    (scattered.graph.blocks.map Block.id).Nodup ∧
    scattered.graph.topLevel.map (·.id.name) = ["message", "define", "key", "a", "b", "odd", "loose"] ∧
    ∃ d all, (target scattered).result = .ok d ∧ tokens d.code = some all ∧
      registrations all = [.message "go \"on\"", .procedure walk.code, .clone, .start] ∧
      List.Forall₂ (Registers scattered.graph)
        (scattered.graph.topLevel.filter fun block => block.opcode ∈ knownHats) (registrations all) := by
  have distinct : (scattered.graph.blocks.map Block.id).Nodup := by decide +kernel
  have made : (target scattered).result.toOption.map (fun d => d.scripts.map registrationOf) =
      some [.message "go \"on\"", .procedure walk.code, .clone, .start] := by
    decide +kernel
  obtain ⟨d, compiled⟩ : ∃ d, (target scattered).result = .ok d := exists_of_toBool (by decide +kernel)
  obtain ⟨-, all, read, registers⟩ := (target_registers distinct).2.2.2.2 d compiled
  obtain ⟨all', read', own⟩ := registrations_descriptor d
  obtain rfl : all = all' := Option.some.inj (read.symm.trans read')
  rw [compiled] at made
  exact ⟨distinct, by decide +kernel, d, all, compiled, read, own.trans (Option.some.inj made), registers⟩

end Compile

end ScratchPage
