import ScratchPage.Proofs.Block.Canvas
import ScratchPage.Proofs.Compile.Lockstep
import ScratchPage.Proofs.Compile.Outcome
import ScratchPage.Proofs.Compile.Tracked
import ScratchPage.Proofs.Lexical.Procedures

/-!
# Calls and definitions of procedures

The procedures that can be called in a target are found before its scripts are compiled, by a look at
the prototypes of its top-level blocks; the same look-up gives the scripts that define them. So every
call in the code of a target, at any depth, is the call of a procedure that one of its scripts defines,
and a call of another procedure has no code (`target_linked`).
-/

namespace ScratchPage
set_option autoImplicit false

/-- A top-level block of the target defines a procedure with this code. The code is that of the
prototype, which the block holds. -/
def Target.Defines (t : Target) (code : String) : Prop :=
  ∃ block ∈ t.graph.blocks, block.topLevel = true ∧ block.opcode = .hat .defineProcedure ∧
    ∃ input id prototype signature, block.input? "custom_block" = some input ∧ input.blockId? = some id ∧
      t.graph.find? id = some prototype ∧ prototype.signature = some signature ∧ signature.code = code

/-- The scopes in which the blocks of a target are compiled; they differ in the procedure around them. -/
structure Scope.Serves (scope : Scope) (t : Target) : Prop where
  target : scope.target = t
  procedures : Compile.definedProcedures t.graph t.graph.topLevel = .ok scope.procedures

namespace Compile

open Outcome

/-- A field that is required is one of the block. -/
theorem requireField_yields (owner : Block) (slot : String) :
    (requireField owner slot : Outcome Field).Yields fun field => owner.field? slot = some field := by
  unfold requireField
  split
  · next found => exact .pure found
  · exact .fail

/-! ## Definitions -/

section

variable {graph : Graph}

/-- A definition has the signature of the prototype that its input refers to, and no other. -/
theorem definedSignature_eq_ok {block : Block} {signature : Signature} :
    definedSignature graph block = .ok signature ↔
      ∃ input id prototype, block.input? "custom_block" = some input ∧ input.blockId? = some id ∧
        graph.find? id = some prototype ∧ prototype.signature = some signature := by
  constructor
  · intro defined
    unfold definedSignature at defined
    split at defined
    · cases defined
    · next id held =>
      split at defined
      · cases defined
      · next prototype found =>
        split at defined
        · next carried =>
          cases defined
          obtain ⟨input, slot, isBlock⟩ := Option.bind_eq_some_iff.1 held
          exact ⟨input, id, prototype, slot, isBlock, Graph.find?_of_get found, carried⟩
        · cases defined
  · rintro ⟨input, id, prototype, slot, isBlock, found, carried⟩
    simp [definedSignature, slot, isBlock, Graph.get, found, carried]

/-- The procedures that can be called are those that have a definition. -/
theorem mem_definedProcedures {blocks : List Block} {procedures : List String}
    (found : definedProcedures graph blocks = .ok procedures) {code : String} :
    code ∈ procedures ↔
      ∃ block ∈ blocks, block.opcode = .hat .defineProcedure ∧
        ∃ signature, definedSignature graph block = .ok signature ∧ signature.code = code := by
  induction blocks generalizing procedures with
  | nil =>
    cases found
    simp
  | cons block rest ih =>
    rw [definedProcedures] at found
    split at found
    · next isDefinition =>
      split at found
      · cases found
      · next signature defined =>
        cases others : definedProcedures graph rest with
        | error e =>
          rw [others] at found
          cases found
        | ok known =>
          rw [others] at found
          cases found
          simp [ih others, isDefinition, defined, eq_comm]
    · next isOther => simp [ih found, isOther]

end

/-- The procedures that can be called in a scope are those that the target defines. -/
theorem mem_procedures_iff {scope : Scope} {t : Target} (serves : scope.Serves t) {code : String} :
    code ∈ scope.procedures ↔ t.Defines code := by
  rw [mem_definedProcedures serves.procedures]
  constructor
  · rintro ⟨block, top, isDefinition, signature, defined, named⟩
    obtain ⟨mem, isTop⟩ := Graph.mem_topLevel_iff.1 top
    obtain ⟨input, id, prototype, slot, isBlock, found, carried⟩ := definedSignature_eq_ok.1 defined
    exact ⟨block, mem, isTop, isDefinition, input, id, prototype, signature, slot, isBlock, found, carried, named⟩
  · rintro ⟨block, mem, isTop, isDefinition, input, id, prototype, signature, slot, isBlock, found, carried, named⟩
    have defined := definedSignature_eq_ok.2 ⟨input, id, prototype, slot, isBlock, found, carried⟩
    exact ⟨block, Graph.mem_topLevel_iff.2 ⟨mem, isTop⟩, isDefinition, signature, defined, named⟩

/-! ## Calls -/

section

variable {scope : Scope}

/-- The statement calls only procedures that can be called in the scope. -/
def CallsKnown (scope : Scope) (statement : Statement) : Prop :=
  ∀ code ∈ statement.calls, code ∈ scope.procedures

theorem chainCalls_known {chain : List Statement} (each : ∀ st ∈ chain, CallsKnown scope st) :
    ∀ code ∈ Statement.chainCalls chain, code ∈ scope.procedures := by
  induction chain with
  | nil => simp [Statement.chainCalls]
  | cons st rest ih =>
    rw [Statement.chainCalls, List.forall_mem_append]
    exact ⟨each st (by simp), ih fun other mem => each other (by simp [mem])⟩

variable {sub : BlockId → Outcome Operand} {stack : BlockId → Outcome (List Statement)} {owner : Block}

theorem callsKnown_of_nil {st : Statement} (none : st.calls = []) : CallsKnown scope st := by
  simp [CallsKnown, none]

/-- A call names a procedure of the scope or is left unresolved. -/
theorem call_yields : (call scope sub owner).Yields fun act => CallsKnown scope (.action act) := by
  unfold call
  split
  · exact .fail
  · split
    · next signature carried known =>
      refine .after fun arguments => .pure ?_
      simpa [CallsKnown, Statement.calls, Action.calls] using known
    · exact .after fun _ => .pure (callsKnown_of_nil rfl)

theorem pointTowards_yields : (pointTowards scope sub owner).Yields fun act => CallsKnown scope (.action act) := by
  refine .after fun choice => ?_
  repeat' first | exact .pure (callsKnown_of_nil rfl) | refine .after fun _ => ?_ | split

theorem cloneOf_yields : (cloneOf scope sub owner).Yields fun act => CallsKnown scope (.action act) := by
  refine .after fun choice => ?_
  repeat' first | exact .pure (callsKnown_of_nil rfl) | refine .after fun _ => ?_ | split

variable (bodies : ∀ start, (stack start).Yields fun chain => ∀ st ∈ chain, CallsKnown scope st)

include bodies

/-- The statements of a slot call known procedures if all chains do. -/
theorem substack_yields (slot : String) :
    (substack stack owner slot).Yields fun chain => ∀ st ∈ chain, CallsKnown scope st := by
  unfold substack
  split
  · exact .pure (by simp)
  · exact .pure (by simp)
  · exact bodies _
  · exact .fail

/-- The step for commands: only the call makes a call, and the control blocks pass on those of their slots. -/
theorem command_yields (op : Command) : (command scope sub stack owner op).Yields (CallsKnown scope) := by
  cases op with
  | callProcedure => exact call_yields.bind fun act known => .pure known
  | pointTowards => exact pointTowards_yields.bind fun act known => .pure known
  | createCloneOf => exact cloneOf_yields.bind fun act known => .pure known
  | forever => exact (substack_yields bodies _).bind fun body known => .pure (chainCalls_known known)
  | repeatTimes | repeatUntil | branch =>
    exact .after fun _ => (substack_yields bodies _).bind fun body known => .pure (chainCalls_known known)
  | branchElse =>
    refine .after fun _ => (substack_yields bodies _).bind fun body known => ?_
    refine (substack_yields bodies _).bind fun other knownOther => .pure ?_
    rw [CallsKnown, Statement.calls, List.forall_mem_append]
    exact ⟨chainCalls_known known, chainCalls_known knownOther⟩
  | goTo =>
    refine .after fun place => ?_
    cases place <;> exact .pure (callsKnown_of_nil rfl)
  | glideTo =>
    refine .after fun _ => .after fun place => ?_
    cases place <;> exact .pure (callsKnown_of_nil rfl)
  | _ =>
    -- The other commands become actions that call nothing.
    repeat refine .after fun _ => ?_
    exact .pure (callsKnown_of_nil rfl)

theorem statementOf_yields : (statementOf scope sub stack owner).Yields (CallsKnown scope) := by
  unfold statementOf
  split
  · exact command_yields bodies _
  · exact .after fun _ => .pure (callsKnown_of_nil rfl)

end

theorem chainOf_yields {p : Statement → Prop} {graph : Graph} {one : BlockId → Outcome Statement}
    (each : ∀ id, (one id).Yields p) (start : Option BlockId) :
    (chainOf graph one start).Yields fun chain => ∀ st ∈ chain, p st := by
  unfold chainOf
  split
  · exact .forAll fun block _ => each block.id
  · exact .fail

/-- The statement for a block calls only procedures that the target defines, at any depth. -/
theorem statement_yields (scope : Scope) (active : List BlockId) (id : BlockId) :
    (statement scope active id).Yields (CallsKnown scope) := by
  fun_induction statement scope active id with
  | case1 | case2 => exact .fail
  | case3 active id block found new ih =>
    exact statementOf_yields fun start => chainOf_yields ih (some start)

theorem chain_yields (scope : Scope) (start : Option BlockId) :
    (chain scope start).Yields fun body => ∀ code ∈ Statement.chainCalls body, code ∈ scope.procedures := by
  intro body done
  exact chainCalls_known (chainOf_yields (statement_yields scope []) start body done)

/-- The script of the procedure whose prototype a definition holds. -/
def IsProcedureOf (scope : Scope) (block : Block) (found : Option Script) : Prop :=
  ∃ signature body, definedSignature scope.target.graph block = .ok signature ∧
    found = some (.procedure signature body) ∧ ∀ code ∈ Statement.chainCalls body, code ∈ scope.procedures

/-- A definition becomes the script of its own procedure. -/
theorem procedure_yields (scope : Scope) (block : Block) :
    (procedure chain scope block).Yields (IsProcedureOf scope block) := by
  refine (Yields.attempt _).bind fun signature defined => ?_
  have last := (chain_yields { scope with signature := some signature } block.next).bind fun body known =>
    Yields.pure (p := IsProcedureOf scope block) ⟨signature, body, defined, rfl, known⟩
  dsimp only
  split
  · exact .after fun _ => last
  · exact last

/-- The script of a block calls only procedures that the target defines. -/
theorem script_yields (scope : Scope) (block : Block) :
    (script chain scope block).Yields fun found =>
      ∀ script, found = some script → ∀ code ∈ script.calls, code ∈ scope.procedures := by
  unfold script
  split
  · next op isHat =>
    cases op with
    | whenFlagClicked | startAsClone =>
      refine (chain_yields scope _).bind fun body known => .pure ?_
      rintro _ ⟨⟩
      exact known
    | whenBroadcastReceived =>
      refine .after fun field => (chain_yields scope _).bind fun body known => .pure ?_
      rintro _ ⟨⟩
      exact known
    | defineProcedure =>
      intro found done
      obtain ⟨signature, body, -, rfl, known⟩ := procedure_yields scope block found done
      rintro _ ⟨⟩
      exact known
    | whenThisSpriteClicked | whenStageClicked | whenKeyPressed | whenBackdropSwitchesTo | whenGreaterThan =>
      exact .after fun _ => .pure (by simp)
  · exact .after fun _ => .pure (by simp)

/-- The scripts of a target call only procedures that one of them defines. -/
theorem scripts_linked {t : Target} {found : List Script} (done : (scripts t).result = .ok found) :
    ∀ script ∈ found, ∀ code ∈ script.calls, code ∈ found.flatMap Script.defines := by
  obtain ⟨procedures, attempted, done⟩ := bind_eq_ok.1 done
  obtain ⟨all, each, kept⟩ := bind_eq_ok.1 done
  obtain rfl : all.filterMap id = found := by simpa using kept
  have known : definedProcedures t.graph t.graph.topLevel = .ok procedures := Yields.attempt _ _ attempted
  intro script mem code calls
  have called : code ∈ procedures := by
    have yields := Yields.forAll (fun block _ => script_yields { target := t, procedures } block) all each
    obtain ⟨_, isIn, rfl⟩ := List.mem_filterMap.1 mem
    exact yields _ isIn script rfl code calls
  obtain ⟨block, top, isDefinition, signature, defined, rfl⟩ := (mem_definedProcedures known).1 called
  obtain ⟨result, isIn, compiled⟩ := exists_of_forAll each top
  have compiled : (procedure chain { target := t, procedures } block).result = .ok result := by
    rwa [Compile.script, isDefinition] at compiled
  obtain ⟨other, body, defined', rfl, -⟩ := procedure_yields _ block result compiled
  obtain rfl : signature = other := Except.ok.inj (defined.symm.trans defined')
  exact List.mem_flatMap.2 ⟨_, List.mem_filterMap.2 ⟨_, isIn, rfl⟩, by simp [Script.defines]⟩

/-- A call becomes the call of the procedure that its target defines, or nothing but a remark. -/
theorem statement_of_call {scope : Scope} {t : Target} (serves : scope.Serves t) {active : List BlockId}
    {id : BlockId} {block : Block} (found : t.graph.find? id = some block)
    (isCall : block.opcode = .command .callProcedure) {signature : Signature}
    (carried : block.signature = some signature) {st : Statement}
    (done : (statement scope active id).result = .ok st) :
    (t.Defines signature.code ∧ ∃ arguments, st = .action (.call signature.code arguments)) ∨
      (¬ t.Defines signature.code ∧ st = .action .unresolvedCall ∧
        (statement scope active id).raised = [(Finding.undefinedProcedure signature.code t.name).diagnostic]) := by
  rw [← mem_procedures_iff serves]
  obtain ⟨rfl, -⟩ := serves
  rw [statement_of_find? found] at done ⊢
  split at done
  · cases done
  · next new =>
    rw [if_neg new]
    simp only [statementOf, isCall, command, call, carried] at done ⊢
    by_cases known : signature.code ∈ scope.procedures
    · rw [if_pos (by simpa using known)] at done
      obtain ⟨act, called, last⟩ := bind_eq_ok.1 done
      obtain ⟨arguments, -, last'⟩ := bind_eq_ok.1 called
      cases last'
      cases last
      exact .inl ⟨known, arguments, rfl⟩
    · rw [if_neg (by simpa using known)] at done ⊢
      cases done
      exact .inr ⟨known, rfl, rfl⟩

/-- The procedures of a target are linked: each look-up of a procedure in its code has the code of a
procedure that one of its scripts puts into the table. A call has no code but a remark, and raises one
warning, exactly when no top-level block of the target defines its procedure; otherwise it calls it. -/
theorem target_linked {t : Target} {d : Descriptor} (compiled : (target t).result = .ok d) :
    (∃ all own, Lexical.tokens d.code = some all ∧ Lexical.tokens d.scriptCode = some own ∧
      ∀ code, Lexical.tableCall ['g', 'e', 't'] code <:+: all →
        Lexical.tableCall ['s', 'e', 't'] code <:+: own) ∧
    ∀ (scope : Scope) (active : List BlockId) (id : BlockId) (block : Block) (signature : Signature)
      (st : Statement), scope.Serves t → t.graph.find? id = some block →
      block.opcode = .command .callProcedure → block.signature = some signature →
      (statement scope active id).result = .ok st →
      ((st.lines = Statement.inBraces [.remark "Unresolved procedure call"] ∧
          (statement scope active id).raised.map Diagnostic.severity = [.warning]) ↔
        ¬ t.Defines signature.code) ∧
      (t.Defines signature.code → ∃ arguments, st = .action (.call signature.code arguments)) := by
  constructor
  · obtain ⟨found, done, last⟩ := bind_eq_ok.1 compiled
    cases last
    have linked := scripts_linked done
    have same : (descriptor t found).scripts = found := by
      unfold descriptor
      split <;> rfl
    rw [← same] at linked
    obtain ⟨all, own, readAll, readOwn, stored⟩ := Lexical.tableCall_of_linked linked
    exact ⟨all, own, readAll, readOwn, stored _⟩
  · intro scope active id block signature st serves found isCall carried done
    obtain ⟨defined, arguments, rfl⟩ | ⟨undefined, rfl, raised⟩ :=
      statement_of_call serves found isCall carried done
    · refine ⟨⟨fun silent => ?_, fun undefined => absurd defined undefined⟩, fun _ => ⟨arguments, rfl⟩⟩
      have lines := silent.1
      simp [Statement.lines, Statement.inBraces, Statement.bodyLines, Action.lines] at lines
    · refine ⟨⟨fun _ => undefined, fun _ => ⟨rfl, ?_⟩⟩, fun defined => absurd defined undefined⟩
      rw [raised]
      rfl

/-- The signature of a procedure. -/
def walk : Signature := ⟨"walk \"%s\"", ["a"], ["steps"], false⟩

/-- A procedure that calls itself in a loop, and then another one that is not defined. -/
def walking : Target :=
  spriteOf
    [linkedBlock "hat" (.hat .defineProcedure) [("custom_block", "prototype")] (some "loop"),
     { linkedBlock "prototype" (.unknown "procedures_prototype") [] none with signature := some walk },
     linkedBlock "loop" (.command .forever) [("SUBSTACK", "again")] none,
     { linkedBlock "again" (.command .callProcedure) [] (some "other") with signature := some walk },
     { linkedBlock "other" (.command .callProcedure) [] none with
       signature := some ⟨"run", [], [], false⟩ }]

/-- A call of a procedure that the sprite defines and one of a procedure that it does not. -/
theorem target_linked_walking :
    ∃ d st scope, (target walking).result = .ok d ∧ scope.Serves walking ∧
      (statement scope [⟨"loop"⟩] ⟨"again"⟩).result = .ok st ∧
      (statement scope [⟨"loop"⟩] ⟨"other"⟩).result = .ok (.action .unresolvedCall) ∧
      (∃ arguments, st = .action (.call walk.code arguments)) ∧ ¬ walking.Defines "run" := by
  let scope : Scope := ⟨walking, [walk.code], some walk⟩
  obtain ⟨d, compiled⟩ : ∃ d, (target walking).result = .ok d := exists_of_toBool (by decide +kernel)
  obtain ⟨st, again⟩ : ∃ st, (statement scope [⟨"loop"⟩] ⟨"again"⟩).result = .ok st :=
    exists_of_toBool (by decide +kernel)
  have serves : scope.Serves walking := ⟨rfl, rfl⟩
  have other : statement scope [⟨"loop"⟩] ⟨"other"⟩ =
      ⟨.ok (.action .unresolvedCall), [(Finding.undefinedProcedure "run" "S").diagnostic]⟩ := by
    have found : scope.target.graph.find? ⟨"other"⟩ = some _ := rfl
    rw [statement_of_find? found]
    rfl
  have defined : walking.Defines walk.code :=
    ⟨_, List.mem_cons_self, rfl, rfl, _, _, _, _, rfl, rfl, rfl, rfl, rfl⟩
  have linked := (target_linked compiled).2
  have calls := linked scope _ _ _ _ _ serves rfl rfl rfl again
  have silent := linked scope _ _ _ _ _ serves rfl rfl rfl (congrArg Outcome.result other)
  refine ⟨d, st, scope, compiled, serves, again, congrArg Outcome.result other, calls.2 defined, silent.1.1 ?_⟩
  rw [other]
  exact ⟨rfl, rfl⟩

end Compile

end ScratchPage
