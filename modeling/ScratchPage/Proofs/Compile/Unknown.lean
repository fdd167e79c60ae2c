import ScratchPage.Proofs.Block.Canvas
import ScratchPage.Proofs.Compile.Lockstep
import ScratchPage.Proofs.Compile.Outcome
import ScratchPage.Proofs.Compile.Tracked
import ScratchPage.Proofs.Lexical.Project

/-!
# Opcodes that are not known

A block whose opcode is not known has a placeholder for its code wherever a command or a value can
stand. So commands and reporters of a project that compiles can be disguised by unknown opcodes, and
the project still compiles, with one exception: a slot for the choice of a menu accepts a reporter that
does not cover the menu, but no unknown block there. `Survives` follows the two compilations, in which
results may differ as long as both are results.
-/

namespace ScratchPage
set_option autoImplicit false

/-! ## Disguises -/

/-- A command or a reporter, and the same block with an opcode that is not known. -/
structure Block.Disguised (a b : Block) : Prop where
  known : (∃ op, a.opcode = .command op) ∨ ∃ op, a.opcode = .reporter op
  unknown : ∃ name, b.opcode = .unknown name
  others : b = { a with opcode := b.opcode, source := b.source }

/-- The same block, disguised or not. -/
def Block.MaybeDisguised (a b : Block) : Prop := a = b ∨ a.Disguised b

/-- The same blocks, some of them disguised. -/
structure Graph.Disguised (a b : Graph) : Prop where
  target : a.target = b.target
  blocks : List.Forall₂ Block.MaybeDisguised a.blocks b.blocks

/-- The same target, with some of its blocks disguised. -/
structure Target.Disguised (a b : Target) : Prop where
  graph : a.graph.Disguised b.graph
  others : b = { a with graph := b.graph }

/-- The same project, with some blocks of its targets disguised. -/
def Project.Disguised (p q : Project) : Prop := List.Forall₂ Target.Disguised p.targets q.targets

/-- The error about a slot for the choice of a menu that holds a disguised reporter, which covers
nothing. The block with the slot is not disguised. -/
inductive Graph.Refused (a b : Graph) : CompileError → Prop
  | uncovered {owner held held' : Block} {slot name : String} {menu : Menu} {id : BlockId} {op : Reporter} :
      owner ∈ a.blocks → owner ∈ b.blocks → owner.opcode.menuSlot? = some (slot, menu) →
      owner.input? slot = some ⟨.block id, none⟩ →
      a.find? id = some held → held.opcode = .reporter op →
      b.find? id = some held' → held'.opcode = .unknown name →
      Refused a b (.malformedInput owner.id slot (.notMenu (.unknown name)))

namespace Block

variable {a b : Block}

namespace MaybeDisguised

theorem id (same : a.MaybeDisguised b) : a.id = b.id := by
  rcases same with rfl | disguised
  · rfl
  · rw [disguised.others]

theorem next (same : a.MaybeDisguised b) : a.next = b.next := by
  rcases same with rfl | disguised
  · rfl
  · rw [disguised.others]

theorem topLevel (same : a.MaybeDisguised b) : a.topLevel = b.topLevel := by
  rcases same with rfl | disguised
  · rfl
  · rw [disguised.others]

theorem signature (same : a.MaybeDisguised b) : a.signature = b.signature := by
  rcases same with rfl | disguised
  · rfl
  · rw [disguised.others]

/-- A disguise leaves a block where it is. -/
theorem comesBefore {a' b' : Block} (first : a.MaybeDisguised b) (second : a'.MaybeDisguised b') :
    Graph.comesBefore a a' = Graph.comesBefore b b' := by
  have place : ∀ {a b : Block}, a.MaybeDisguised b → a.x = b.x ∧ a.y = b.y := by
    rintro a b (rfl | disguised)
    · exact ⟨rfl, rfl⟩
    · rw [disguised.others]
      exact ⟨rfl, rfl⟩
  unfold Graph.comesBefore
  rw [(place first).1, (place first).2, (place second).1, (place second).2, first.id, second.id]

end MaybeDisguised

/-- Only commands and reporters are disguised. -/
theorem Disguised.not_hat (disguised : a.Disguised b) (op : Hat) : a.opcode ≠ .hat op := by
  rcases disguised.known with ⟨known, isOp⟩ | ⟨known, isOp⟩ <;> rw [isOp] <;> rintro ⟨⟩

theorem Disguised.not_menu (disguised : a.Disguised b) (op : Menu) : a.opcode ≠ .menu op := by
  rcases disguised.known with ⟨known, isOp⟩ | ⟨known, isOp⟩ <;> rw [isOp] <;> rintro ⟨⟩

end Block

namespace Graph.Disguised

variable {a b : Graph}

/-- A name finds the same block in both graphs, disguised or not. -/
theorem find? (same : a.Disguised b) (id : BlockId) :
    Option.Rel Block.MaybeDisguised (a.find? id) (b.find? id) := by
  have blocks := same.blocks
  unfold Graph.find?
  generalize a.blocks = left at blocks ⊢
  generalize b.blocks = right at blocks ⊢
  induction blocks with
  | nil => exact .none
  | @cons c d _ _ first _ ih =>
    rw [List.find?_cons, List.find?_cons, first.id]
    cases d.id == id with
    | true => exact .some first
    | false => exact ih

/-- A block of the first graph is found in the second, disguised or not. -/
theorem found (same : a.Disguised b) {id : BlockId} {block : Block} (found : a.find? id = some block) :
    ∃ block', b.find? id = some block' ∧ block.MaybeDisguised block' := by
  have related := same.find? id
  rw [found] at related
  generalize b.find? id = other at related ⊢
  cases related with
  | some related => exact ⟨_, rfl, related⟩

theorem lost (same : a.Disguised b) {id : BlockId} (lost : a.find? id = none) : b.find? id = none := by
  have related := same.find? id
  rw [lost] at related
  generalize b.find? id = other at related ⊢
  cases related
  rfl

theorem topLevel (same : a.Disguised b) :
    List.Forall₂ Block.MaybeDisguised a.topLevel b.topLevel :=
  forall₂_inOrder (List.rel_filter (fun _ _ same => iff_of_eq (congrArg (· = true) same.topLevel))
    same.blocks) fun first second => first.comesBefore second

end Graph.Disguised

namespace Compile

/-! ## Compilations that survive -/

/-- Whenever the first computation has a result, so has the second, or it is refused. -/
def Survives (refused : CompileError → Prop) {α : Type} (R : Agreement False α) (x y : Outcome α) :
    Prop :=
  ∀ a, x.result = .ok a →
    (∃ b, y.result = .ok b ∧ R.holds a b) ∨ ∃ e, y.result = .error e ∧ refused e

variable {refused : CompileError → Prop}

/-- Steps in sequence survive if each of them does. -/
theorem survives_lockstep :
    Lockstep (m := Outcome) (n := Outcome) False (Survives refused) (fun _ => True) where
  pure := by
    rintro α R a b agrees _ ⟨⟩
    exact .inl ⟨b, rfl, agrees⟩
  bind := by
    intro α β R S x y f g first next c result
    obtain ⟨a, isOk, result⟩ := Outcome.bind_eq_ok.1 result
    rcases first a isOk with ⟨b, isOk', agrees⟩ | ⟨e, failed, isRefused⟩
    · rcases next a b agrees c result with ⟨d, result', agrees'⟩ | ⟨e, failed, isRefused⟩
      · exact .inl ⟨d, Outcome.bind_eq_ok.2 ⟨b, isOk', result'⟩, agrees'⟩
      · exact .inr ⟨e, Outcome.bind_eq_error.2 (.inr ⟨b, isOk', failed⟩), isRefused⟩
    · exact .inr ⟨e, Outcome.bind_eq_error.2 (.inl failed), isRefused⟩
  report := by
    rintro R d _ ⟨⟩
    exact .inl ⟨(), rfl, R.refl _⟩
  fail := by
    rintro α R e - _ ⟨⟩
  isLocal _ := trivial

theorem survives_of_error {α : Type} {R : Agreement False α} {x y : Outcome α} {e : CompileError}
    (failed : x.result = .error e) : Survives refused R x y := by
  intro a result
  rw [failed] at result
  cases result

/-- Results that are not compared. -/
theorem survives_of_ok {α : Type} {x y : Outcome α} {b : α} (result : y.result = .ok b) :
    Survives refused .loose x y :=
  fun _ _ => .inl ⟨b, result, nofun⟩

section

variable {scope : Scope} {sub : BlockId → Outcome Operand} {block : Block} {name : String}
variable (isUnknown : block.opcode = .unknown name)

include isUnknown

theorem valueOf_unknown : (valueOf scope sub block).result = .ok (.missing name) := by
  rw [valueOf, isUnknown]
  rfl

theorem statementOf_unknown {stack : BlockId → Outcome (List Statement)} :
    (statementOf scope sub stack block).result = .ok (.action (.unknown name)) := by
  rw [statementOf, isUnknown]
  rfl

theorem script_unknown {body : Scope → Option BlockId → Outcome (List Statement)} :
    (script body scope block).result = .ok none := by
  rw [script, isUnknown]
  rfl

end

/-! ## Slots with menus -/

section

variable {scope : Scope} {sub : BlockId → Outcome Operand} {owner block : Block} {slot : String}
variable {menu : Menu} {id : BlockId} (found : scope.target.graph.find? id = some block)

include found

theorem choice_of_covered {shadow : Payload} (input : owner.input? slot = some ⟨.block id, some shadow⟩) :
    choice scope sub owner slot menu = sub id >>= fun operand => pure (.computed operand) := by
  unfold choice Graph.get
  rw [input]
  simp only [found]
  change (if block.opcode = .menu menu ∧ _ then _ else _) = _
  rw [if_neg (by simp)]

/-- A slot for a choice refuses a block that is neither its menu nor a reporter. -/
theorem choice_of_other (input : owner.input? slot = some ⟨.block id, none⟩)
    (notMenu : block.opcode ≠ .menu menu) (notReporter : ∀ op, block.opcode ≠ .reporter op) :
    choice scope sub owner slot menu =
      Compiling.fail (.malformedInput owner.id slot (.notMenu block.opcode)) := by
  unfold choice Graph.get
  rw [input]
  simp only [found]
  change (if block.opcode = .menu menu ∧ _ then _ else _) = _
  rw [if_neg (fun h => notMenu h.1)]
  split
  · rename_i covers
    cases covers
  · rename_i op _ isOp
    exact absurd isOp (notReporter op)
  · rfl

end

section

variable {s₁ s₂ : Scope} (same : s₁.target.graph.Disguised s₂.target.graph)
variable (refusals : ∀ e, s₁.target.graph.Refused s₂.target.graph e → refused e)

include same refusals

/-- The choice in a slot of a block that is not disguised, whatever the slot holds. -/
theorem choice_survives {owner : Block} (mem : owner ∈ s₁.target.graph.blocks)
    (mem' : owner ∈ s₂.target.graph.blocks) {sub₁ sub₂ : BlockId → Outcome Operand}
    (subs : ∀ held, owner.Holds held → Survives refused .loose (sub₁ held) (sub₂ held))
    {slot : String} {menu : Menu} (isSlot : owner.opcode.menuSlot? = some (slot, menu)) :
    Survives refused .choice (choice s₁ sub₁ owner slot menu) (choice s₂ sub₂ owner slot menu) := by
  by_cases disguise : ∃ id shadow block block', owner.input? slot = some ⟨.block id, shadow⟩ ∧
      s₁.target.graph.find? id = some block ∧ s₂.target.graph.find? id = some block' ∧
        block.Disguised block'
  · obtain ⟨id, shadow, block, block', input, found, found', disguised⟩ := disguise
    have computed : Survives refused .choice (sub₁ id >>= fun a => pure (.computed a))
        (sub₂ id >>= fun b => pure (.computed b)) :=
      survives_lockstep.bind (subs id (Block.holds_of_input? input rfl)) fun _ _ equal =>
        survives_lockstep.pure (.computed equal)
    obtain ⟨name, isUnknown⟩ := disguised.unknown
    cases shadow with
    | some shadow =>
      rw [choice_of_covered found input, choice_of_covered found' input]
      exact computed
    | none =>
      rcases disguised.known with ⟨op, isCommand⟩ | ⟨op, isReporter⟩
      · -- a command in such a slot is refused before it is disguised
        rw [choice_of_other found input (disguised.not_menu menu) (by simp [isCommand])]
        exact survives_of_error rfl
      · rw [choice_of_other found' input (by simp [isUnknown]) (by simp [isUnknown]), isUnknown]
        intro _ _
        have refusal := Graph.Refused.uncovered mem mem' isSlot input found isReporter found' isUnknown
        exact .inr ⟨_, rfl, refusals _ refusal⟩
  · refine survives_lockstep.choice subs (fun id shadow input => ?_) menu
    unfold Graph.get
    rw [same.target]
    cases found : s₁.target.graph.find? id with
    | none =>
      rw [same.lost found]
      exact .error trivial
    | some block =>
      obtain ⟨block', found', kept | disguised⟩ := same.found found
      · rw [found', kept]
        exact .ok rfl
      · exact absurd ⟨id, shadow, block, block', input, found, found', disguised⟩ disguise

variable (alike : SameSurroundings s₁ s₂)

include alike

/-- The step for values: a disguised block still has an outcome, and any other one survives with what it holds.
-/
theorem value_survives {active : List BlockId} {id : BlockId} :
    Survives refused .loose (value s₁ active id) (value s₂ active id) := by
  fun_induction value s₁ active id with
  | case1 active id lost => exact survives_of_error rfl
  | case2 active id block found seen => exact survives_of_error rfl
  | case3 active id block found new ih =>
    obtain ⟨block', found', kept | disguised⟩ := same.found found
    · subst kept
      have mem := List.mem_of_find?_eq_some found
      have mem' := List.mem_of_find?_eq_some found'
      rw [value_of_find? found', if_neg new]
      exact survives_lockstep.valueOf alike (fun held _ => ih held) fun slot menu isSlot =>
        choice_survives same refusals mem mem' (fun held _ => ih held) isSlot
    · obtain ⟨name, isUnknown⟩ := disguised.unknown
      rw [value_of_find? found', if_neg new]
      exact survives_of_ok (valueOf_unknown isUnknown)

end

/-! ## Chains -/

/-- A walk along the links to the next block meets the same names. -/
theorem walk_disguised {a b : Graph} (same : a.Disguised b) (met : List BlockId) (id : BlockId) :
    SameEnd (fun _ => True) (List.Forall₂ Block.MaybeDisguised) (a.walk met id) (b.walk met id) := by
  fun_induction Graph.walk a met id with
  | case1 met id lost =>
    rw [walk_of_lost (same.lost lost), same.target]
    exact .error trivial
  | case2 met id block found seen =>
    obtain ⟨block', found', _⟩ := same.found found
    rw [walk_of_find? found', if_pos seen, same.target]
    exact .error trivial
  | case3 met id block found new last =>
    obtain ⟨block', found', related⟩ := same.found found
    rw [walk_of_find? found', if_neg new, ← related.next, last]
    exact .ok (.cons related .nil)
  | case4 met id block found new next after ih =>
    obtain ⟨block', found', related⟩ := same.found found
    rw [walk_of_find? found', if_neg new, ← related.next, after]
    exact ih.map fun _ _ more => .cons related more

/-- A chain survives if its statements do. -/
theorem chainOf_survives {a b : Graph} (same : a.Disguised b) {one₁ one₂ : BlockId → Outcome Statement}
    (ones : ∀ id, Survives refused .loose (one₁ id) (one₂ id)) (start : Option BlockId) :
    Survives refused .loose (chainOf a one₁ start) (chainOf b one₂ start) := by
  refine survives_lockstep.chainOf ?_
  cases start with
  | none => exact .ok .nil
  | some id =>
    refine (walk_disguised same [] id).imp fun _ _ blocks => blocks.imp fun block block' related => ?_
    rw [related.id]
    exact ones block'.id

section

variable {s₁ s₂ : Scope} (same : s₁.target.graph.Disguised s₂.target.graph)
variable (refusals : ∀ e, s₁.target.graph.Refused s₂.target.graph e → refused e)
variable (alike : SameSurroundings s₁ s₂)

include same refusals alike

/-- The step for statements: a disguised block still has an outcome, and any other one survives with what it
holds. -/
theorem statement_survives {active : List BlockId} {id : BlockId} :
    Survives refused .loose (statement s₁ active id) (statement s₂ active id) := by
  fun_induction statement s₁ active id with
  | case1 active id lost => exact survives_of_error rfl
  | case2 active id block found seen => exact survives_of_error rfl
  | case3 active id block found new ih =>
    obtain ⟨block', found', kept | disguised⟩ := same.found found
    · subst kept
      have mem := List.mem_of_find?_eq_some found
      have mem' := List.mem_of_find?_eq_some found'
      have subs : ∀ held, block.Holds held →
          Survives refused .loose (value s₁ (id :: active) held) (value s₂ (id :: active) held) :=
        fun held _ => value_survives same refusals alike
      rw [statement_of_find? found', if_neg new]
      refine survives_lockstep.statementOf alike subs
        (fun slot menu isSlot => choice_survives same refusals mem mem' subs isSlot) fun start _ => ?_
      exact chainOf_survives same ih (some start)
    · obtain ⟨name, isUnknown⟩ := disguised.unknown
      rw [statement_of_find? found', if_neg new]
      exact survives_of_ok (statementOf_unknown isUnknown)

end

/-! ## Scripts, targets and projects -/

section

variable {a b : Graph} (same : a.Disguised b)

include same

/-- A disguise leaves the signature of a prototype. -/
theorem definedSignature_disguised (block : Block) : definedSignature a block = definedSignature b block := by
  unfold definedSignature Graph.get
  cases (block.input? "custom_block").bind Input.blockId? with
  | none => rfl
  | some id =>
    cases found : a.find? id with
    | none => simp only [same.lost found, found, same.target]
    | some held =>
      obtain ⟨held', found', related⟩ := same.found found
      simp only [found, found', related.signature]

/-- The run over definitions: a disguised block was none, and is none. -/
theorem definedProcedures_disguised {blocks blocks' : List Block}
    (related : List.Forall₂ Block.MaybeDisguised blocks blocks') :
    definedProcedures a blocks = definedProcedures b blocks' := by
  induction related with
  | nil => rfl
  | @cons block block' _ _ first _ ih =>
    rw [definedProcedures, definedProcedures, ih]
    rcases first with rfl | disguised
    · rw [definedSignature_disguised same]
    · obtain ⟨name, isUnknown⟩ := disguised.unknown
      rw [if_neg (disguised.not_hat _), if_neg (by simp [isUnknown])]

end

/-- The run over the scripts of a target. -/
theorem scripts_survive {t t' : Target} (disguised : t.Disguised t')
    (refusals : ∀ e, t.graph.Refused t'.graph e → refused e) :
    Survives refused .loose (scripts t) (scripts t') := by
  have same := disguised.graph
  have name : t.name = t'.name := by rw [disguised.others]
  refine survives_lockstep.scriptsOf name ?_ fun s₁ s₂ alike is₁ is₂ => ?_
  · rw [definedProcedures_disguised same same.topLevel]
    exact .refl (fun _ _ => trivial) fun _ _ => rfl
  · refine same.topLevel.imp fun block block' related => ?_
    rcases related with rfl | disguised
    · refine survives_lockstep.script (fun s s' alike is is' => ?_) ?_ alike is₁ is₂
      · subst is is'
        exact chainOf_survives same (fun _ => statement_survives same refusals alike) block.next
      · rw [definedSignature_disguised same]
        exact .refl (fun _ _ => trivial) fun _ _ => rfl
    · obtain ⟨name, isUnknown⟩ := disguised.unknown
      exact survives_of_ok (script_unknown isUnknown)

theorem target_survives {t t' : Target} (disguised : t.Disguised t')
    (refusals : ∀ e, t.graph.Refused t'.graph e → refused e) :
    Survives refused .loose (target t) (target t') :=
  survives_lockstep.bind (scripts_survive disguised refusals) fun _ _ _ => survives_of_ok rfl

/-- Unknown opcodes end no compilation but in one place. A project that compiles still compiles after
some of its commands and reporters are disguised by unknown opcodes, or the first error is about a slot
for the choice of a menu: a disguised reporter stands there without covering the menu. -/
theorem compile_disguised {p q : Project} (disguised : p.Disguised q) {code : String}
    (compiled : p.compile.result = .ok code) :
    (∃ code', q.compile.result = .ok code') ∨
      ∃ e, q.compile.result = .error e ∧
        ∃ t t', (t, t') ∈ p.targets.zip q.targets ∧ t.graph.Refused t'.graph e := by
  let refused (e : CompileError) : Prop :=
    ∃ t t', (t, t') ∈ p.targets.zip q.targets ∧ t.graph.Refused t'.graph e
  have pairs : List.Forall₂ (fun t t' => t.Disguised t' ∧ (t, t') ∈ p.targets.zip q.targets)
      p.targets q.targets :=
    List.forall₂_iff_zip.2 ⟨disguised.length_eq, fun mem => ⟨List.forall₂_zip disguised mem, mem⟩⟩
  have ordered := Project.forall₂_inCodeOrder pairs fun t t' same => by rw [same.1.others]
  have each : List.Forall₂ (fun t t' => Survives refused .loose (target t) (target t'))
      p.inCodeOrder q.inCodeOrder :=
    ordered.imp fun t t' same => target_survives same.1 fun _ refusal => ⟨t, t', same.2, refusal⟩
  have survives : Survives refused .loose p.compile q.compile :=
    survives_lockstep.bind (survives_lockstep.forAll each) fun _ _ _ => survives_of_ok rfl
  rcases survives code compiled with ⟨code', compiled', -⟩ | failed
  · exact .inl ⟨code', compiled'⟩
  · exact .inr failed

/-! ## Two disguises -/

/-- The project compiles. -/
def compiles (project : Project) : Bool := project.compile.result.toBool

theorem exists_of_compiles {project : Project} (h : compiles project = true) :
    ∃ code, project.compile.result = .ok code := Outcome.exists_of_toBool h

/-- A loop that turns by a sum, then the costume named by a value that covers the menu of its slot, and
then a last command. -/
def turning (sum name last : Opcode) : Project where
  targets :=
    [spriteOf
      [linkedBlock "hat" (.hat .whenFlagClicked) [] (some "loop"),
       linkedBlock "loop" (.command .forever) [("SUBSTACK", "turn")] (some "switch"),
       linkedBlock "turn" (.command .turnLeft) [("DEGREES", "sum")] none,
       linkedBlock "sum" sum [("NUM1", "name"), ("NUM2", "name")] none,
       { linkedBlock "switch" (.command .switchCostumeTo) [] (some "last") with
         inputs := [("COSTUME", ⟨.block ⟨"name"⟩, some (.block ⟨"menu"⟩)⟩)] },
       linkedBlock "name" name [] none,
       linkedBlock "menu" (.menu .costume) [] none,
       linkedBlock "last" last [] none]]

def knownTurning : Project := turning (.reporter .add) (.reporter .xPosition) (.command .showSprite)

def disguisedTurning : Project :=
  turning (.unknown "music_beat") (.unknown "pen_color") (.unknown "pen_clear")

/-- Two reporters and a command are disguised, and the only slot for a menu is covered. -/
theorem compile_disguised_turning :
    ∃ code code', knownTurning.Disguised disguisedTurning ∧ knownTurning.compile.result = .ok code ∧
      disguisedTurning.compile.result = .ok code' := by
  have disguised : knownTurning.Disguised disguisedTurning := by
    refine .cons ⟨⟨rfl, ?_⟩, rfl⟩ .nil
    exact .cons (.inl rfl) (.cons (.inl rfl) (.cons (.inl rfl)
      (.cons (.inr ⟨.inr ⟨_, rfl⟩, ⟨_, rfl⟩, rfl⟩) (.cons (.inl rfl)
        (.cons (.inr ⟨.inr ⟨_, rfl⟩, ⟨_, rfl⟩, rfl⟩) (.cons (.inl rfl)
          (.cons (.inr ⟨.inl ⟨_, rfl⟩, ⟨_, rfl⟩, rfl⟩) .nil)))))))
  obtain ⟨code, compiled⟩ := exists_of_compiles (by decide +kernel : compiles knownTurning = true)
  rcases compile_disguised disguised compiled with ⟨code', compiled'⟩ | ⟨e, -, t, t', mem, refusal⟩
  · exact ⟨code, code', disguised, compiled, compiled'⟩
  · simp only [turning, knownTurning, disguisedTurning, List.zip_cons_cons, List.zip_nil_right, List.mem_singleton,
      Prod.mk.injEq] at mem
    obtain ⟨rfl, rfl⟩ := mem
    -- the only slot for a menu is covered
    have covered : ∀ slots ∈ disguisedTurning.targets.map (·.graph.blocks), ∀ owner ∈ slots,
        (owner.opcode.menuSlot?.all fun (slot, _) =>
          (owner.input? slot).all fun input => input.shadow.isSome) = true := by decide
    cases refusal with
    | uncovered mem mem' isSlot input =>
      have here := covered _ (List.mem_singleton.2 rfl) _ mem'
      rw [isSlot] at here
      simp [input] at here

/-- The stored blocks of a script that shows the costume named by a value. The value covers no menu. -/
def storedHat : Json :=
  Lexical.blockJson "event_whenflagclicked" [("next", .string "switch"), ("topLevel", .bool true)]

def storedSwitch : Json :=
  Lexical.blockJson "looks_switchcostumeto"
    [("inputs", .object [("COSTUME", .array [.number (.int 2), .string "name"])])]

/-- A stored project with this script; the value has the given opcode. -/
def costumeByName (opcode : String) : Json :=
  Lexical.spriteJson "S"
    [("hat", storedHat), ("name", Lexical.blockJson opcode []), ("switch", storedSwitch)]

/-- The project as it is read. -/
def namedCostume (opcode : String) : Project where
  targets :=
    [{ spriteOf
        [{ linkedBlock "hat" (.hat .whenFlagClicked) [] (some "switch") with source := storedHat },
         { linkedBlock "name" (.ofName opcode) [] none with source := Lexical.blockJson opcode [] },
         { linkedBlock "switch" (.command .switchCostumeTo) [("COSTUME", "name")] none with
           source := storedSwitch }] with
       rotationStyle := "all around" }]

/-- The block, the slot and the opcode that a project is refused for. -/
def refusalOf? (project : Project) : Option (BlockId × String × Opcode) :=
  match project.compile.result with
  | .error (.malformedInput id slot (.notMenu opcode)) => some (id, slot, opcode)
  | _ => none

/-- A refusal that is found by evaluation is the result. -/
theorem result_of_refusalOf? {project : Project} {id : BlockId} {slot : String} {opcode : Opcode}
    (refused : refusalOf? project = some (id, slot, opcode)) :
    project.compile.result = .error (.malformedInput id slot (.notMenu opcode)) := by
  unfold refusalOf? at refused
  split at refused
  · rename_i failed
    cases refused
    exact failed
  · cases refused

/-- A position names a costume, and the project compiles. Under an unknown opcode it does not. -/
theorem uncovered_name_refused :
    ∃ p q code, Project.ofJson (costumeByName "motion_xposition") = .ok p ∧
      Project.ofJson (costumeByName "pen_getcolor") = .ok q ∧ p.Disguised q ∧
      p.compile.result = .ok code ∧
      q.compile.result =
        .error (.malformedInput ⟨"switch"⟩ "COSTUME" (.notMenu (.unknown "pen_getcolor"))) := by
  have known : Opcode.ofName "motion_xposition" = .reporter .xPosition := by decide
  have unknown : Opcode.ofName "pen_getcolor" = .unknown "pen_getcolor" := by decide
  have disguised : (namedCostume "motion_xposition").Disguised (namedCostume "pen_getcolor") := by
    refine .cons ⟨⟨rfl, ?_⟩, rfl⟩ .nil
    exact .cons (.inl rfl) (.cons (.inr ⟨.inr ⟨_, known⟩, ⟨_, unknown⟩, rfl⟩) (.cons (.inl rfl) .nil))
  obtain ⟨code, compiled⟩ := exists_of_compiles
    (by decide +kernel : compiles (namedCostume "motion_xposition") = true)
  have failed := result_of_refusalOf? (by decide +kernel :
    refusalOf? (namedCostume "pen_getcolor") = some (⟨"switch"⟩, "COSTUME", .unknown "pen_getcolor"))
  exact ⟨_, _, code, rfl, rfl, disguised, compiled, failed⟩

end Compile

end ScratchPage
