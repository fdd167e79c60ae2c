import ScratchPage.Proofs.Block.Canvas
import ScratchPage.Proofs.Compile.Rules
import ScratchPage.Proofs.Compile.Tracked

/-!
# Blocks that matter

A compilation starts at the top-level blocks and follows the links to the next block and to the blocks
in slots. What a slot showed before another block covered it is never looked at, nor is any block that
no script leads to. So two targets with the same live blocks have the same outcome: equal code, equal
findings in equal order, or the same error.
-/

namespace ScratchPage
set_option autoImplicit false

open Relation

namespace Graph

/-- A top-level block, or one that a live block has after it or in a slot. -/
inductive Live (graph : Graph) : BlockId → Prop
  | top {block : Block} : block ∈ graph.blocks → block.topLevel = true → Live graph block.id
  | step {a b : BlockId} : Live graph a → graph.Edge a b → Live graph b

/-- Graphs in which every block has a name of its own and whose live blocks are the same. -/
structure SameLive (graph graph' : Graph) : Prop where
  target : graph.target = graph'.target
  distinct : (graph.blocks.map Block.id).Nodup
  distinct' : (graph'.blocks.map Block.id).Nodup
  blocks : ∀ block : Block,
    block ∈ graph.blocks ∧ graph.Live block.id ↔ block ∈ graph'.blocks ∧ graph'.Live block.id

variable {graph graph' : Graph} {id : BlockId}

theorem Live.trans {a : BlockId} (live : graph.Live a) (path : ReflTransGen graph.Edge a id) :
    graph.Live id := by
  induction path with
  | refl => exact live
  | tail _ edge ih => exact ih.step edge

theorem Live.next {block : Block} (live : graph.Live id) (found : graph.find? id = some block)
    {after : BlockId} (leads : block.next = some after) : graph.Live after :=
  live.step ⟨block, found, .inl leads⟩

theorem Live.held {block : Block} (live : graph.Live id) (found : graph.find? id = some block)
    {inner : BlockId} (holds : block.Holds inner) : graph.Live inner :=
  live.step ⟨block, found, .inr holds⟩

namespace SameLive

theorem symm (same : SameLive graph graph') : SameLive graph' graph :=
  ⟨same.target.symm, same.distinct', same.distinct, fun block => (same.blocks block).symm⟩

/-- A live block of one graph is found in the other. -/
theorem find?_some (same : SameLive graph graph') (live : graph.Live id) {block : Block}
    (found : graph.find? id = some block) : graph'.find? id = some block := by
  obtain rfl := id_of_find? found
  have mem : block ∈ graph.blocks := List.mem_of_find?_eq_some found
  have mem' := ((same.blocks block).1 ⟨mem, live⟩).1
  exact find?_of_mem same.distinct' mem'

theorem live (same : SameLive graph graph') (live : graph.Live id) : graph'.Live id := by
  induction live with
  | @top block mem isTop => exact ((same.blocks block).1 ⟨mem, .top mem isTop⟩).2
  | @step a b live edge ih =>
    obtain ⟨block, found, leads⟩ := edge
    exact ih.step ⟨block, same.find?_some live found, leads⟩

/-- A live block is found in both graphs, since its name is its own in each. -/
theorem find? (same : SameLive graph graph') (live : graph.Live id) :
    graph.find? id = graph'.find? id := by
  cases found : graph.find? id with
  | some block => exact (same.find?_some live found).symm
  | none =>
    cases found' : graph'.find? id with
    | none => rfl
    | some block =>
      have other := same.symm.find?_some (same.live live) found'
      rw [found] at other
      cases other

theorem get (same : SameLive graph graph') (live : graph.Live id) : graph.get id = graph'.get id := by
  rw [Graph.get, Graph.get, same.find? live, same.target]

theorem topLevel (same : SameLive graph graph') : graph.topLevel = graph'.topLevel := by
  refine topLevel_eq same.distinct same.distinct' fun block isTop => ?_
  constructor
  · intro mem
    exact ((same.blocks block).1 ⟨mem, .top mem isTop⟩).1
  · intro mem
    exact ((same.blocks block).2 ⟨mem, .top mem isTop⟩).1

/-- A walk from a live block stays among live blocks. -/
theorem walk (same : SameLive graph graph') {met : List BlockId} (live : graph.Live id) :
    graph.walk met id = graph'.walk met id := by
  fun_induction Graph.walk graph met id with
  | case1 met id lost =>
    rw [same.find? live] at lost
    rw [Compile.walk_of_lost lost, same.target]
  | case2 met id block found seen =>
    rw [same.find? live] at found
    rw [Compile.walk_of_find? found, if_pos seen, same.target]
  | case3 met id block found new last =>
    rw [same.find? live] at found
    rw [Compile.walk_of_find? found, if_neg new, last]
  | case4 met id block found new after leads ih =>
    have inner := ih (live.next found leads)
    rw [same.find? live] at found
    rw [Compile.walk_of_find? found, if_neg new, leads, inner]

theorem chain (same : SameLive graph graph') {start : Option BlockId}
    (live : ∀ id, start = some id → graph.Live id) : graph.chain start = graph'.chain start := by
  cases start with
  | none => rfl
  | some id => exact same.walk (live id rfl)

/-- Blocks that nothing of a closed part of the graph leads to can be exchanged. -/
theorem of_parts {name : String} {kept rest rest' : List Block}
    (distinct : ((kept ++ rest).map Block.id).Nodup) (distinct' : ((kept ++ rest').map Block.id).Nodup)
    (closed : ∀ block ∈ kept, ∀ id, block.next = some id ∨ block.Holds id → id ∈ kept.map Block.id)
    (inner : ∀ block ∈ rest, block.topLevel = false) (inner' : ∀ block ∈ rest', block.topLevel = false) :
    SameLive ⟨name, kept ++ rest⟩ ⟨name, kept ++ rest'⟩ := by
  -- one direction, for any two such parts: live blocks are kept and live in the other graph
  have carried : ∀ {rest rest' : List Block}, ((kept ++ rest).map Block.id).Nodup →
      ((kept ++ rest').map Block.id).Nodup → (∀ block ∈ rest, block.topLevel = false) →
      ∀ {id}, Live ⟨name, kept ++ rest⟩ id →
        id ∈ kept.map Block.id ∧ Live ⟨name, kept ++ rest'⟩ id := by
    intro rest rest' distinct distinct' inner id live
    induction live with
    | @top block mem isTop =>
      rcases List.mem_append.1 mem with isKept | dropped
      · exact ⟨List.mem_map_of_mem isKept, .top (List.mem_append_left rest' isKept) isTop⟩
      · rw [inner block dropped] at isTop
        cases isTop
    | @step a b _ edge ih =>
      obtain ⟨isKept, live'⟩ := ih
      obtain ⟨block, found, leads⟩ := edge
      obtain ⟨source, mem, rfl⟩ := List.mem_map.1 isKept
      have here : Graph.find? ⟨name, kept ++ rest⟩ source.id = some source :=
        find?_of_mem distinct (List.mem_append_left rest mem)
      have there : Graph.find? ⟨name, kept ++ rest'⟩ source.id = some source :=
        find?_of_mem distinct' (List.mem_append_left rest' mem)
      obtain rfl : source = block := Option.some.inj (here.symm.trans found)
      exact ⟨closed source mem b leads, live'.step ⟨source, there, leads⟩⟩
  have mem_kept : ∀ {rest : List Block}, ((kept ++ rest).map Block.id).Nodup →
      ∀ block ∈ kept ++ rest, block.id ∈ kept.map Block.id → block ∈ kept := by
    intro rest distinct block mem isKept
    obtain ⟨source, memKept, same⟩ := List.mem_map.1 isKept
    rwa [← List.inj_on_of_nodup_map distinct (List.mem_append_left rest memKept) mem same]
  refine ⟨rfl, distinct, distinct', fun block => ?_⟩
  constructor
  · rintro ⟨mem, live⟩
    obtain ⟨isKept, live'⟩ := carried distinct distinct' inner live
    exact ⟨List.mem_append_left rest' (mem_kept distinct block mem isKept), live'⟩
  · rintro ⟨mem, live⟩
    obtain ⟨isKept, live'⟩ := carried distinct' distinct inner' live
    exact ⟨List.mem_append_left rest (mem_kept distinct' block mem isKept), live'⟩

end SameLive

end Graph

namespace Compile

theorem eq_respects {m : Type → Type} [Compiling m] :
    Respects (m := m) (n := m) (fun x y => x = y) (fun _ => True) where
  pure _ := rfl
  bind first next := by rw [first, funext next]
  report _ := rfl
  fail _ := rfl
  isLocal _ := trivial

theorem SameEnd.of_eq {α : Type} {x y : Except CompileError α} (equal : x = y) :
    SameEnd (fun _ => True) Eq x y := by
  subst equal
  exact .refl (fun _ _ => trivial) fun _ _ => rfl

section

variable {s₁ s₂ : Scope} {active : List BlockId} {id : BlockId}
variable (alike : SameSurroundings s₁ s₂) (same : s₁.target.graph.SameLive s₂.target.graph)

include same

/-- What a live block makes of the choice in a slot. -/
theorem choice_eq {block : Block} (live : s₁.target.graph.Live id)
    (found : s₁.target.graph.find? id = some block) {sub₁ sub₂ : BlockId → Outcome Operand}
    (subs : ∀ held, block.Holds held → sub₁ held = sub₂ held) (slot : String) (menu : Menu) :
    choice s₁ sub₁ block slot menu = choice s₂ sub₂ block slot menu :=
  eq_respects.lockstep.choice subs
    (fun _ _ slot => .of_eq (same.get (live.held found (Block.holds_of_input? slot rfl)))) menu

include alike in
/-- The step for values: a live block holds only live blocks. -/
theorem value_eq (live : s₁.target.graph.Live id) : value s₁ active id = value s₂ active id := by
  fun_induction value s₁ active id with
  | case1 active id lost =>
    rw [same.find? live] at lost
    rw [value_of_lost lost, alike.name]
  | case2 active id block found seen =>
    rw [same.find? live] at found
    rw [value_of_find? found, if_pos seen, alike.name]
  | case3 active id block found new ih =>
    have subs : ∀ held, block.Holds held → value s₁ (id :: active) held = value s₂ (id :: active) held :=
      fun held holds => ih held (live.held found holds)
    have found' := found
    rw [same.find? live] at found'
    rw [value_of_find? found', if_neg new]
    exact eq_respects.lockstep.valueOf alike subs fun slot menu _ =>
      choice_eq same live found subs slot menu

/-- A chain that starts at a live block has live blocks only. -/
theorem chainOf_eq {one₁ one₂ : BlockId → Outcome Statement} {start : Option BlockId}
    (live : ∀ id, start = some id → s₁.target.graph.Live id)
    (ones : ∀ id, s₁.target.graph.Live id → one₁ id = one₂ id) :
    chainOf s₁.target.graph one₁ start = chainOf s₂.target.graph one₂ start := by
  refine eq_respects.lockstep.chainOf ?_
  rw [← same.chain live]
  refine .refl (fun _ _ => trivial) fun blocks walked => List.forall₂_same.2 fun block mem => ?_
  cases start with
  | none =>
    cases walked
    cases mem
  | some id =>
    obtain ⟨_, path⟩ := Graph.walk_reaches walked block mem
    exact ones block.id ((live id rfl).trans path)

include alike in
/-- The step for statements, with the chains in their slots. -/
theorem statement_eq (live : s₁.target.graph.Live id) :
    statement s₁ active id = statement s₂ active id := by
  fun_induction statement s₁ active id with
  | case1 active id lost =>
    rw [same.find? live] at lost
    rw [statement_of_lost lost, alike.name]
  | case2 active id block found seen =>
    rw [same.find? live] at found
    rw [statement_of_find? found, if_pos seen, alike.name]
  | case3 active id block found new ih =>
    have subs : ∀ held, block.Holds held → value s₁ (id :: active) held = value s₂ (id :: active) held :=
      fun held holds => value_eq alike same (live.held found holds)
    have found' := found
    rw [same.find? live] at found'
    rw [statement_of_find? found', if_neg new]
    refine eq_respects.lockstep.statementOf alike subs
      (fun slot menu _ => choice_eq same live found subs slot menu) fun start holds => ?_
    refine chainOf_eq same (fun id isStart => ?_) fun held liveHeld => ih held liveHeld
    cases isStart
    exact live.held found holds

end

section

variable {graph graph' : Graph} (same : graph.SameLive graph')

include same

/-- The prototype of a definition on the canvas is live. -/
theorem definedSignature_eq {block : Block} (top : block ∈ graph.topLevel) :
    definedSignature graph block = definedSignature graph' block := by
  obtain ⟨mem, isTop⟩ := Graph.mem_topLevel_iff.1 top
  have found := Graph.find?_of_mem same.distinct mem
  unfold definedSignature
  cases held : (block.input? "custom_block").bind Input.blockId? with
  | none => rfl
  | some id =>
    obtain ⟨input, slot, isBlock⟩ := Option.bind_eq_some_iff.1 held
    have holds : block.Holds id := ⟨_, input, Block.mem_of_input? slot, isBlock⟩
    simp only [same.get ((Graph.Live.top mem isTop).held found holds)]

/-- The run over the definitions on the canvas. -/
theorem definedProcedures_eq {blocks : List Block} (tops : ∀ block ∈ blocks, block ∈ graph.topLevel) :
    definedProcedures graph blocks = definedProcedures graph' blocks := by
  induction blocks with
  | nil => rfl
  | cons block rest ih =>
    have first := definedSignature_eq same (tops block (by simp))
    have others := ih fun b mem => tops b (by simp [mem])
    rw [definedProcedures, definedProcedures, first, others]

end

/-- The run over the scripts of a target. -/
theorem scripts_eq {t t' : Target} (name : t.name = t'.name) (same : t.graph.SameLive t'.graph) :
    scripts t = scripts t' := by
  refine eq_respects.lockstep.scriptsOf name (.of_eq ?_) fun s₁ s₂ alike is₁ is₂ => ?_
  · rw [← same.topLevel]
    exact definedProcedures_eq same fun _ mem => mem
  · rw [← same.topLevel]
    refine List.forall₂_same.2 fun block top => ?_
    obtain ⟨mem, isTop⟩ := Graph.mem_topLevel_iff.1 top
    have found := Graph.find?_of_mem same.distinct mem
    refine eq_respects.lockstep.script (fun s s' alike is is' => ?_)
      (.of_eq (definedSignature_eq same top)) alike is₁ is₂
    subst is is'
    exact chainOf_eq same (fun id leads => (Graph.Live.top mem isTop).next found leads)
      fun id live => statement_eq alike same live

/-- Dead blocks do not matter: two targets that differ only in blocks that are not live have the same
outcome, with the same descriptor or the same error and with the same findings in the same order. -/
theorem target_eq_of_same_live {t t' : Target} (rest : t' = { t with graph := t'.graph })
    (same : t.graph.SameLive t'.graph) : target t = target t' := by
  have name : t.name = t'.name := by rw [rest]
  have scripts := scripts_eq name same
  unfold target
  rw [← scripts]
  have described : descriptor t = descriptor t' := by
    rw [rest]
    rfl
  rw [described]

/-- A script that shows the costume named by a position; the position covers the menu of the slot. -/
def dressing : List Block :=
  [linkedBlock "hat" (.hat .whenFlagClicked) [] (some "switch"),
   { linkedBlock "switch" (.command .switchCostumeTo) [] none with
     inputs := [("COSTUME", ⟨.block ⟨"name"⟩, some (.block ⟨"menu"⟩)⟩)] },
   linkedBlock "name" (.reporter .xPosition) [] none]

/-- The covered menu. -/
def coveredMenu : Block :=
  { linkedBlock "menu" (.menu .costume) [] none with fields := [("COSTUME", ⟨"dog", none⟩)] }

/-- Other blocks that the script does not lead to: one stands after itself, one holds itself. -/
def tangle : List Block :=
  [linkedBlock "menu" (.unknown "pen_clear") [] (some "menu"),
   linkedBlock "sum" (.reporter .add) [("NUM1", "sum"), ("NUM2", "menu")] none]

/-- A covered menu is exchanged for blocks that lead back to themselves. -/
theorem target_eq_of_same_live_tangle :
    (spriteOf (dressing ++ [coveredMenu])).graph.SameLive (spriteOf (dressing ++ tangle)).graph ∧
    target (spriteOf (dressing ++ [coveredMenu])) = target (spriteOf (dressing ++ tangle)) := by
  have closed : ∀ block ∈ dressing, ∀ id, block.next = some id ∨ block.Holds id →
      id ∈ dressing.map Block.id := by
    simp [dressing, linkedBlock, Block.Holds, Input.blockId?, Payload.blockId?]
  have same : (spriteOf (dressing ++ [coveredMenu])).graph.SameLive (spriteOf (dressing ++ tangle)).graph :=
    .of_parts (by decide) (by decide) closed (by decide) (by decide)
  exact ⟨same, target_eq_of_same_live rfl same⟩

end Compile

end ScratchPage
