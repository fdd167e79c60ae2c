import ScratchPage.Proofs.Compile.Tracked

/-!
# Targets are compiled in isolation

A compiler can keep one log for a whole project and hand it from block to block and from target to target,
together with the set of the blocks that are being compiled. Run like this, the rules only ever append to
the log: every target has the outcome that it has on its own, whatever was on the log before. So the code
of a project is the code of its stage followed by that of its sprites, its findings are theirs in the same
order, and the first target that does not compile ends it.
-/

namespace ScratchPage
set_option autoImplicit false

/-- What a compiler changes on its way: the log, and the set of the blocks that are being compiled. -/
structure CompilerState where
  log : Log
  active : Finset BlockId

/-- A computation that changes the state of a compiler. It has no outcome when blocks are nested deeper than
it can follow. -/
def Threaded (α : Type) : Type := CompilerState → Option (Except CompileError α × CompilerState)

namespace Threaded

variable {α β : Type}

def andThen (x : Threaded α) (next : α → Threaded β) : Threaded β := fun s =>
  (x s).bind fun (result, after) =>
    match result with
    | .ok a => next a after
    | .error e => some (.error e, after)

instance : Compiling Threaded where
  pure a := fun s => some (.ok a, s)
  bind := andThen
  fail e := fun s => some (.error e, s)
  report d := fun s => some (.ok (), { s with log := s.log ++ [d] })

/-- The compilation of a block: it is in the set until its inner computation ends. -/
def nested (target : String) (id : BlockId) (inner : Threaded α) : Threaded α := fun s =>
  if id ∈ s.active then some (.error (.cyclicChain target id), s)
  else (inner { s with active := insert id s.active }).map fun (result, after) =>
    (result, { after with active := after.active.erase id })

/-- The operand for a block, at most `depth` blocks deep. -/
def value (scope : Scope) : Nat → BlockId → Threaded Operand
  | 0, _ => fun _ => none
  | depth + 1, id =>
    match scope.target.graph.find? id with
    | none => Compiling.fail (.unknownBlock scope.target.name id)
    | some block => nested scope.target.name id (Compile.valueOf scope (value scope depth) block)

/-- The statement for a block, at most `depth` blocks deep. -/
def statement (scope : Scope) : Nat → BlockId → Threaded Statement
  | 0, _ => fun _ => none
  | depth + 1, id =>
    match scope.target.graph.find? id with
    | none => Compiling.fail (.unknownBlock scope.target.name id)
    | some block =>
      nested scope.target.name id
        (Compile.statementOf scope (value scope depth)
          (fun start => Compile.chainOf scope.target.graph (statement scope depth) (some start)) block)

/-- The statements for a chain, each at most `depth` blocks deep. -/
def chain (depth : Nat) (scope : Scope) (start : Option BlockId) : Threaded (List Statement) :=
  Compile.chainOf scope.target.graph (statement scope depth) start

/-- The descriptor of a target, whose blocks are followed `depth` deep. -/
def target (depth : Nat) (t : Target) : Threaded Descriptor := do
  return Compile.descriptor t (← Compile.scriptsOf (chain depth) t)

/-- Compiles targets one after the other, with the code so far. All of them share the log; each of them
starts with no block being compiled. -/
def targets (depth : Nat) : List Target → String → Log → Option (Except CompileError String × Log)
  | [], code, log => some (.ok code, log)
  | t :: rest, code, log =>
    (target depth t ⟨log, ∅⟩).bind fun (result, after) =>
      match result with
      | .ok descriptor => targets depth rest (code ++ descriptor.code) after.log
      | .error e => some (.error e, after.log)

/-- Compiles a project on a log. -/
def project (depth : Nat) (p : Project) (log : Log) : Option (Except CompileError String × Log) :=
  targets depth p.inCodeOrder "" log

/-! ## The log only grows -/

/-- The computation changes the set like the other one and appends to the log what the other one raises. -/
def Appends {α : Type} (x : Threaded α) (y : Tracked α) : Prop :=
  ∀ s, x s = (y s.active).map fun (outcome, after) => (outcome.result, ⟨s.log ++ outcome.raised, after⟩)

theorem appends_fail (e : CompileError) :
    Appends (Compiling.fail e : Threaded α) (Compiling.fail e : Tracked α) := by
  intro s
  change some (_, s) = some (_, (⟨s.log ++ [], s.active⟩ : CompilerState))
  rw [List.append_nil]
  rfl

/-- Steps in sequence append to the log if each of them does. -/
theorem appends_respects :
    Compile.Respects (m := Threaded) (n := Tracked) Appends (fun _ => True) where
  pure a := by
    intro s
    change some (_, s) = some (_, (⟨s.log ++ [], s.active⟩ : CompilerState))
    rw [List.append_nil]
    rfl
  bind := by
    intro α β x y f g first next s
    change (x s).bind _ = Option.map _ ((y s.active).bind _)
    rw [first s]
    cases ran : y s.active with
    | none => rfl
    | some last =>
      obtain ⟨⟨result, raised⟩, after⟩ := last
      cases result with
      | error e => rfl
      | ok a =>
        have second := next a ⟨s.log ++ raised, after⟩
        simp only [Option.map_some, Option.bind_some, Option.map_map]
        rw [second]
        congr 1
        funext last
        simp [List.append_assoc]
  report d := fun s => rfl
  fail _ := appends_fail _
  isLocal _ := trivial

/-- A nested computation changes the set around it and leaves the log to what is inside. -/
theorem appends_nested {target : String} {id : BlockId} {x : Threaded α} {y : Tracked α}
    (inner : Appends x y) : Appends (nested target id x) (Tracked.nested target id y) := by
  intro s
  unfold nested Tracked.nested
  by_cases met : id ∈ s.active
  · rw [if_pos met, if_pos met]
    exact appends_fail (.cyclicChain target id) s
  · rw [if_neg met, if_neg met, inner, Option.map_map, Option.map_map]
    rfl

/-- The step for values, by induction on the depth. -/
theorem appends_value (scope : Scope) (depth : Nat) (id : BlockId) :
    Appends (value scope depth id) (Tracked.value scope depth id) := by
  induction depth generalizing id with
  | zero => exact fun s => rfl
  | succ depth ih =>
    unfold value Tracked.value
    cases scope.target.graph.find? id with
    | none => exact appends_fail _
    | some block =>
      exact appends_nested (appends_respects.valueOf (fun held _ => ih held) fun _ _ _ _ => trivial)

/-- The step for statements, by induction on the depth. -/
theorem appends_statement (scope : Scope) (depth : Nat) (id : BlockId) :
    Appends (statement scope depth id) (Tracked.statement scope depth id) := by
  induction depth generalizing id with
  | zero => exact fun s => rfl
  | succ depth ih =>
    unfold statement Tracked.statement
    cases scope.target.graph.find? id with
    | none => exact appends_fail _
    | some block =>
      refine appends_nested (appends_respects.statementOf (fun held _ => appends_value scope depth held)
        (fun _ _ _ _ => trivial) fun start _ => ?_)
      exact appends_respects.chainOf (fun _ _ => trivial) fun _ _ held _ => ih held.id

/-- The run over a target appends what the target raises. -/
theorem appends_target (depth : Nat) (t : Target) : Appends (target depth t) (Tracked.target depth t) := by
  have chains : ∀ scope : Scope, scope.target = t → ∀ block ∈ t.graph.blocks,
      Appends (chain depth scope block.next) (Tracked.chain depth scope block.next) := by
    intro scope _ block _
    exact appends_respects.chainOf (fun _ _ => trivial) fun _ _ held _ =>
      appends_statement scope depth held.id
  have scripts := appends_respects.scriptsOf chains (fun _ _ _ _ => trivial)
    (fun block mem => Graph.mem_topLevel mem) fun _ _ => trivial
  exact appends_respects.bind scripts fun found => appends_respects.pure _

/-- On any log a target has its outcome, and its findings follow what was on the log. -/
theorem target_eq {t : Target} {depth : Nat} (enough : t.graph.blocks.length < depth) (log : Log) :
    target depth t ⟨log, ∅⟩ =
      some ((Compile.target t).result, ⟨log ++ (Compile.target t).raised, ∅⟩) := by
  have restored : Tracked.target depth t ∅ = some (Compile.target t, ∅) := Tracked.restores_target enough
  rw [appends_target depth t ⟨log, ∅⟩, restored]
  rfl

end Threaded

namespace Compile

/-! ## One target after the other -/

/-- The code of targets, one after the other. -/
def codeOf (descriptors : List Descriptor) : String := String.join (descriptors.map Descriptor.code)

theorem codeOf_cons (d : Descriptor) (ds : List Descriptor) : codeOf (d :: ds) = d.code ++ codeOf ds := by
  rw [codeOf, List.map_cons, String.join_cons]
  rfl

/-- What the targets raise, each compiled on its own. -/
def raisedBy (targets : List Target) : Log := targets.flatMap fun t => (target t).raised

theorem raisedBy_cons (t : Target) (rest : List Target) :
    raisedBy (t :: rest) = (target t).raised ++ raisedBy rest := rfl

/-- The outcome is put together from the outcomes of the targets, each compiled on its own: all of them
compile, or one of them is the first that does not. -/
inductive InTurn {α : Type} (whole : List Descriptor → α) (targets : List Target) : Outcome α → Prop where
  | all (descriptors : List Descriptor)
      (each : List.Forall₂ (fun t d => (target t).result = .ok d) targets descriptors) :
      InTurn whole targets ⟨.ok (whole descriptors), raisedBy targets⟩
  | stopped (before : List Target) (t : Target) (rest : List Target) (e : CompileError)
      (order : targets = before ++ t :: rest)
      (earlier : ∀ b ∈ before, ∃ d, (target b).result = .ok d)
      (failed : (target t).result = .error e) :
      InTurn whole targets ⟨.error e, raisedBy (before ++ [t])⟩

theorem forAll_cons (t : Target) (rest : List Target) :
    (Compiling.forAll target (t :: rest) : Outcome (List Descriptor)) =
      (target t).andThen fun d => (Compiling.forAll target rest).andThen fun ds => pure (d :: ds) := rfl

theorem InTurn.map {α : Type} {targets : List Target} {found : Outcome (List Descriptor)}
    (inTurn : InTurn id targets found) (whole : List Descriptor → α) :
    InTurn whole targets ⟨found.result.map whole, found.raised⟩ := by
  cases inTurn with
  | all descriptors each => exact .all descriptors each
  | stopped before t rest e order earlier failed => exact .stopped before t rest e order earlier failed

/-- Targets are compiled in turn: the induction is on the targets, and the first failure ends it. -/
theorem inTurn_forAll (targets : List Target) : InTurn id targets (Compiling.forAll target targets) := by
  induction targets with
  | nil => exact .all [] .nil
  | cons t rest ih =>
    rw [forAll_cons, Outcome.andThen]
    generalize (Compiling.forAll target rest : Outcome (List Descriptor)) = found at ih
    cases first : (target t).result with
    | error e =>
      have alone : raisedBy ([] ++ [t]) = (target t).raised := List.append_nil _
      have stopped : InTurn id (t :: rest) ⟨.error e, raisedBy ([] ++ [t])⟩ :=
        .stopped [] t rest e rfl (by simp) first
      rw [alone] at stopped
      exact stopped
    | ok d =>
      cases ih with
      | all ds each =>
        have all : InTurn id (t :: rest) ⟨.ok (d :: ds), raisedBy (t :: rest)⟩ :=
          .all (d :: ds) (.cons first each)
        rw [raisedBy_cons, ← List.append_nil (raisedBy rest)] at all
        exact all
      | stopped before failing others e order earlier failed =>
        have earlier : ∀ b ∈ t :: before, ∃ d, (target b).result = .ok d := by
          rw [List.forall_mem_cons]
          exact ⟨⟨d, first⟩, earlier⟩
        exact .stopped (t :: before) failing others e (congrArg (t :: ·) order) earlier failed

/-- On one log, targets have together the outcome of the list of steps. -/
theorem threaded_targets {depth : Nat} {targets : List Target}
    (enough : ∀ t ∈ targets, t.graph.blocks.length < depth) (code : String) (log : Log) :
    Threaded.targets depth targets code log =
      some ((Compiling.forAll target targets : Outcome (List Descriptor)).result.map
          (fun descriptors => code ++ codeOf descriptors),
        log ++ (Compiling.forAll target targets : Outcome (List Descriptor)).raised) := by
  induction targets generalizing code log with
  | nil => simp [Threaded.targets, Compiling.forAll, pure, Except.map, codeOf]
  | cons t rest ih =>
    rw [forAll_cons, Threaded.targets, Threaded.target_eq (enough t (by simp)), Option.bind_some,
      Outcome.andThen]
    cases first : (target t).result with
    | error e => rfl
    | ok d =>
      simp only
      rw [ih fun other mem => enough other (by simp [mem]), Outcome.andThen]
      cases (Compiling.forAll target rest : Outcome (List Descriptor)).result with
      | error e => simp [Except.map]
      | ok ds => simp [Except.map, pure, codeOf_cons, String.append_assoc]

/-- The code of a project is put together once all targets have a result. -/
theorem compile_eq (project : Project) :
    let found : Outcome (List Descriptor) := Compiling.forAll target project.inCodeOrder
    project.compile = ⟨found.result.map codeOf, found.raised⟩ := by
  intro found
  change found.andThen (fun descriptors => pure (codeOf descriptors)) = _
  unfold Outcome.andThen
  cases found.result with
  | error e => rfl
  | ok descriptors => simp [Except.map, pure]

end Compile

namespace Project

/-! ## The order of the code -/

/-- A stage is read only if there was none before. -/
theorem countP_of_readTargets {stage : Option String} {items : List Json} {targets : List Target}
    (read : readTargets stage items = .ok targets) :
    targets.countP (·.isStage) ≤ if stage.isSome then 0 else 1 := by
  induction items generalizing stage targets with
  | nil =>
    cases read
    simp
  | cons json items ih =>
    simp only [readTargets, except_bind_eq_ok] at read
    obtain ⟨first, -, read⟩ := read
    split at read
    next isStage =>
      cases stage with
      | some name => cases read
      | none =>
        obtain ⟨rest, more, done⟩ := except_bind_eq_ok.1 read
        cases done
        have others : rest.countP (·.isStage) ≤ 0 := ih more
        rw [List.countP_cons_of_pos isStage]
        exact Nat.succ_le_succ others
    next isSprite =>
      obtain ⟨rest, more, done⟩ := except_bind_eq_ok.1 read
      cases done
      rw [List.countP_cons_of_neg isSprite]
      exact ih more

/-- A second stage is an error, so the targets that are read have at most one. -/
theorem countP_isStage {source : String} {project : Project} (read : ofText source = .ok project) :
    project.targets.countP (·.isStage) ≤ 1 := by
  unfold ofText at read
  split at read
  · unfold ofJson at read
    split at read
    next items _ =>
      cases found : readTargets none items with
      | error e => simp [found, Except.map] at read
      | ok targets =>
        simp only [found, Except.map, Except.ok.injEq] at read
        subst read
        exact countP_of_readTargets found
    next => cases read
  · cases read

/-- With one stage at most, the code order is the stage and then the sprites. -/
theorem inCodeOrder_eq {project : Project} (one : project.targets.countP (·.isStage) ≤ 1) :
    project.inCodeOrder =
      (project.targets.find? (·.isStage)).toList ++ project.targets.filter (!·.isStage) := by
  unfold inCodeOrder
  rw [List.countP_eq_length_filter] at one
  rw [← List.head?_filter]
  generalize project.targets.filter (·.isStage) = stages at one
  match stages with
  | [] => rfl
  | [stage] => rfl
  | _ :: _ :: _ => simp at one

theorem mem_inCodeOrder {project : Project} {t : Target} :
    t ∈ project.inCodeOrder ↔ t ∈ project.targets := by
  unfold inCodeOrder
  cases mark : t.isStage with
  | true => simp [mark]
  | false => simp [mark]

end Project

namespace Compile

/-- A project that was read has one stage at most. Its code is that of the stage and then of the sprites,
each compiled on its own, and its findings are theirs in this order; the first of them that does not
compile ends it. The same comes out on one log for all blocks and targets, after what was on it. -/
theorem compile_isolated {source : String} {project : Project} (read : Project.ofText source = .ok project) :
    project.targets.countP (·.isStage) ≤ 1 ∧
    project.inCodeOrder =
      (project.targets.find? (·.isStage)).toList ++ project.targets.filter (!·.isStage) ∧
    InTurn codeOf project.inCodeOrder project.compile ∧
    ∀ depth, (∀ t ∈ project.targets, t.graph.blocks.length < depth) → ∀ incoming,
      (∀ t ∈ project.targets, Threaded.target depth t ⟨incoming, ∅⟩ =
        some ((target t).result, ⟨incoming ++ (target t).raised, ∅⟩)) ∧
      Threaded.project depth project incoming =
        some (project.compile.result, incoming ++ project.compile.raised) := by
  have one := Project.countP_isStage read
  refine ⟨one, Project.inCodeOrder_eq one, ?_, fun depth enough incoming => ⟨?_, ?_⟩⟩
  · rw [compile_eq]
    exact (inTurn_forAll project.inCodeOrder).map codeOf
  · exact fun t mem => Threaded.target_eq (enough t mem) incoming
  · have order : ∀ t ∈ project.inCodeOrder, t.graph.blocks.length < depth :=
      fun t mem => enough t (Project.mem_inCodeOrder.1 mem)
    rw [Threaded.project, threaded_targets order, compile_eq]
    simp only [String.empty_append]

/-- A sprite that does not compile, and behind it the stage. -/
def stageLastSource : String :=
  "\x7b\"targets\":[\x7b\"name\":\"C\",\"isStage\":false," ++
  "\"blocks\":\x7b\"a\":\x7b\"opcode\":\"procedures_definition\",\"topLevel\":true\x7d\x7d\x7d," ++
  "\x7b\"name\":\"S\",\"isStage\":true\x7d]\x7d"

/-- A target with the number of its blocks, and whether it compiles. -/
def summaryOf (t : Target) : String × Nat × Bool :=
  (t.name, t.graph.blocks.length, (target t).result.isOk)

/-- The targets of a source in the order of their code. -/
def summariesOf? (source : String) : Option (List (String × Nat × Bool)) :=
  match Project.ofText source with
  | .ok project => some (project.inCodeOrder.map summaryOf)
  | .error _ => none

theorem exists_of_summariesOf? {source : String} {summaries : List (String × Nat × Bool)}
    (found : summariesOf? source = some summaries) :
    ∃ project, Project.ofText source = .ok project ∧ project.inCodeOrder.map summaryOf = summaries := by
  unfold summariesOf? at found
  split at found
  next project read => exact ⟨project, read, Option.some.inj found⟩
  next => cases found

/-- A project whose stage is its last target. -/
theorem compile_isolated_stageLast :
    ∃ project, Project.ofText stageLastSource = .ok project ∧
      project.inCodeOrder.map summaryOf = [("S", 0, true), ("C", 1, false)] ∧
      project.targets.countP (·.isStage) ≤ 1 ∧
      InTurn codeOf project.inCodeOrder project.compile ∧
      ∀ incoming, Threaded.project 2 project incoming =
        some (project.compile.result, incoming ++ project.compile.raised) := by
  have found : summariesOf? stageLastSource = some [("S", 0, true), ("C", 1, false)] := by decide +kernel
  obtain ⟨project, read, summaries⟩ := exists_of_summariesOf? found
  obtain ⟨one, -, inTurn, threaded⟩ := compile_isolated read
  have small : ∀ t ∈ project.targets, t.graph.blocks.length < 2 := by
    intro t mem
    have listed := List.mem_map_of_mem (f := summaryOf) (Project.mem_inCodeOrder.2 mem)
    rw [summaries] at listed
    simp only [summaryOf, List.mem_cons, Prod.mk.injEq, List.not_mem_nil, or_false] at listed
    omega
  exact ⟨project, read, summaries, one, inTurn, fun incoming => (threaded 2 small incoming).2⟩

end Compile

end ScratchPage
