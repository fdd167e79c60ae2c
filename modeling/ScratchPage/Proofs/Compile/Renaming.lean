import Mathlib.Logic.Equiv.Basic
import ScratchPage.Proofs.Compile.Likeness.Scripts

/-!
# Names of blocks

The names of blocks only connect them. When the blocks of a target that was read get other names, its
code stays the same: a name finds a block, marks it as being compiled and stands in messages, but it
never stands in code. Names also decide between top-level blocks on the same place, so this case is left
out. The renamed blocks may be listed in any order, as they are sorted by their new names.
-/

namespace ScratchPage
set_option autoImplicit false

/-! ## Renamed targets -/

def Payload.renamed (f : BlockId → BlockId) : Payload → Payload
  | .block id => .block (f id)
  | payload => payload

def Input.renamed (f : BlockId → BlockId) (input : Input) : Input :=
  ⟨input.payload.renamed f, input.shadow.map (Payload.renamed f)⟩

/-- The block with its own name, the next one and those in its slots changed. -/
def Block.renamed (f : BlockId → BlockId) (block : Block) : Block :=
  { block with
    id := f block.id
    next := block.next.map f
    inputs := block.inputs.map fun (slot, input) => (slot, input.renamed f) }

/-- The second block is the first one with other names. It was read from another value. -/
def Block.Renamed (f : BlockId → BlockId) (a b : Block) : Prop :=
  b = { a.renamed f with source := b.source }

/-- The second target is the first one with other names, and no two names become one. -/
structure Target.Renamed (f : BlockId → BlockId) (t t' : Target) : Prop where
  injective : ∀ a ∈ t.graph.blocks.map Block.id, ∀ b ∈ t.graph.blocks.map Block.id, f a = f b → a = b
  blocks : ∃ blocks, List.Forall₂ (Block.Renamed f) t.graph.blocks blocks ∧ blocks.Perm t'.graph.blocks
  others : t' = { t with graph := { t.graph with blocks := t'.graph.blocks } }

namespace Renaming

open ScratchPage.Graph Outcome

variable {f : BlockId → BlockId}

/-- Names of the first graph and what they become. -/
def like (f : BlockId → BlockId) (ids : List BlockId)
    (injective : ∀ a ∈ ids, ∀ b ∈ ids, f a = f b → a = b) : Likeness where
  view := id
  names x y := x ∈ ids ∧ y = f x
  unique := by
    rintro a b _ _ ⟨first, rfl⟩ ⟨second, rfl⟩
    exact ⟨congrArg f, injective a first b second⟩

section

variable {ids : List BlockId} {injective : ∀ a ∈ ids, ∀ b ∈ ids, f a = f b → a = b}

/-- The input of a renamed block leads to the block with the new name. -/
theorem sameInput {input : Input} (known : ∀ id, input.blockId? = some id → id ∈ ids) :
    (like f ids injective).SameInput input (input.renamed f) := by
  refine ⟨?_, by simp [Input.renamed]⟩
  unfold Input.renamed Payload.renamed
  cases payload : input.payload with
  | empty => exact .empty
  | literal kind raw => exact .literal rfl rfl fun _ => rfl
  | «variable» name id => exact .variable name id
  | list name id => exact .list name id
  | block id => exact .block ⟨known id (by simp [Input.blockId?, payload, Payload.blockId?]), rfl⟩

/-- A renamed block has the same contents, with references by the new names. -/
theorem sameBlock {a b : Block} (renamed : a.Renamed f b) (mem : a.id ∈ ids)
    (known : ∀ id ∈ a.references, id ∈ ids) : (like f ids injective).SameBlock a b := by
  have slots : List.Forall₂ (fun s t => s.1 = t.1 ∧ (like f ids injective).SameInput s.2 t.2)
      a.inputs (a.renamed f).inputs := by
    refine List.forall₂_map_right_iff.2 (List.forall₂_same.2 fun pair mem => ⟨rfl, sameInput ?_⟩)
    exact fun id held => known id (Block.mem_references (.inr ⟨pair.1, pair.2, mem, held⟩))
  have inputs := Likeness.rel_find? (fun _ => (like f ids injective).SameInput) slots
  rw [renamed]
  refine ⟨⟨mem, rfl⟩, rfl, ?_, rfl, inputs, fun _ _ => rfl, fun _ => ?_⟩
  · change Option.Rel _ a.next (a.next.map f)
    cases next : a.next with
    | none => exact .none
    | some id => exact .some ⟨known id (Block.mem_references (.inl next)), rfl⟩
  · change Option.Rel _ (a.field? _) (a.field? _)
    cases a.field? "BROADCAST_OPTION" with
    | none => exact .none
    | some field => exact .some rfl

end

theorem map_id {blocks blocks' : List Block} (renamed : List.Forall₂ (Block.Renamed f) blocks blocks') :
    blocks'.map Block.id = (blocks.map Block.id).map f := by
  induction renamed with
  | nil => rfl
  | cons first _ ih =>
    rw [List.map_cons, List.map_cons, List.map_cons, ih, first]
    rfl

/-- Each block has a renamed one in its place. -/
theorem exists_of_mem {blocks blocks' : List Block} (renamed : List.Forall₂ (Block.Renamed f) blocks blocks')
    {a : Block} (mem : a ∈ blocks) : ∃ b ∈ blocks', a.Renamed f b := by
  induction renamed with
  | nil => cases mem
  | @cons c d _ _ first _ ih =>
    rcases List.mem_cons.1 mem with rfl | mem
    · exact ⟨d, List.mem_cons_self, first⟩
    · obtain ⟨b, isIn, renamed⟩ := ih mem
      exact ⟨b, List.mem_cons_of_mem d isIn, renamed⟩

/-- Blocks that do not share a place keep their order. -/
theorem comesBefore_renamed {a a' b b' : Block} (first : a.Renamed f b) (second : a'.Renamed f b')
    (apart : SamePlace a a' → a = a') : comesBefore a a' = comesBefore b b' := by
  rw [first, second, Bool.eq_iff_iff, comesBefore_iff, comesBefore_iff]
  by_cases place : SamePlace a a'
  · obtain rfl := apart place
    simp [Block.renamed]
  · have names : ∀ p : Prop, Binary.orderKey a.y = Binary.orderKey a'.y ∧
        (Binary.orderKey a.x < Binary.orderKey a'.x ∨ Binary.orderKey a.x = Binary.orderKey a'.x ∧ p) ↔
        Binary.orderKey a.y = Binary.orderKey a'.y ∧ Binary.orderKey a.x < Binary.orderKey a'.x := by
      intro p
      constructor
      · rintro ⟨level, left | ⟨upright, -⟩⟩
        · exact ⟨level, left⟩
        · exact absurd ⟨level, upright⟩ place
      · rintro ⟨level, left⟩
        exact ⟨level, .inl left⟩
    simp only [Block.renamed, names]

section

variable {t t' : Target} (renamed : t.Renamed f t') (closed : t.graph.Closed)
variable (distinct : (t.graph.blocks.map Block.id).Nodup)

include renamed distinct

theorem nodup_renamed : (t'.graph.blocks.map Block.id).Nodup := by
  obtain ⟨blocks, same, perm⟩ := renamed.blocks
  have ids : (blocks.map Block.id).Nodup := by
    rw [map_id same]
    exact distinct.map_on renamed.injective
  exact (perm.map Block.id).nodup_iff.1 ids

include closed

omit distinct in
theorem sameBlock_of_mem {a b : Block} (mem : a ∈ t.graph.blocks) (same : a.Renamed f b) :
    (like f _ renamed.injective).SameBlock a b := by
  refine sameBlock same (List.mem_map_of_mem mem) fun id reference => ?_
  obtain ⟨held, found⟩ := closed a mem id reference
  exact List.mem_map.2 ⟨held, List.mem_of_find?_eq_some found, id_of_find? found⟩

/-- The graphs are alike. Where no two scripts share a place, names do not decide the order of the canvas. -/
theorem sameGraph (apart : ∀ a ∈ t.graph.blocks, ∀ b ∈ t.graph.blocks, a.topLevel = true →
      b.topLevel = true → SamePlace a b → a = b) :
    (like f _ renamed.injective).SameGraph t.graph t'.graph where
  found := by
    rintro x _ ⟨mem, rfl⟩
    obtain ⟨block, isIn, rfl⟩ := List.mem_map.1 mem
    obtain ⟨blocks, same, perm⟩ := renamed.blocks
    obtain ⟨block', isIn', renamedBlock⟩ := exists_of_mem same isIn
    have found := find?_of_mem distinct isIn
    have found' := find?_of_mem (nodup_renamed renamed distinct) (perm.mem_iff.1 isIn')
    have name : block'.id = f block.id := by
      rw [renamedBlock]
      rfl
    rw [name] at found'
    rw [found, found']
    exact .some (sameBlock_of_mem renamed closed isIn renamedBlock)
  topLevel := by
    obtain ⟨blocks, same, perm⟩ := renamed.blocks
    let tops := t.graph.blocks.filter (·.topLevel)
    have kept : List.Forall₂ (Block.Renamed f) tops (blocks.filter (·.topLevel)) :=
      List.rel_filter (fun a b same => by rw [same]; rfl) same
    have pairs : List.Forall₂ (fun a b => a ∈ tops ∧ a.Renamed f b) tops (blocks.filter (·.topLevel)) :=
      List.forall₂_iff_zip.2
        ⟨kept.length_eq, fun mem => ⟨(List.of_mem_zip mem).1, List.forall₂_zip kept mem⟩⟩
    have ordered := forall₂_inOrder pairs fun {a b a' b'} first second =>
      comesBefore_renamed first.2 second.2 fun place => by
        obtain ⟨mem, isTop⟩ := List.mem_filter.1 first.1
        obtain ⟨mem', isTop'⟩ := List.mem_filter.1 second.1
        exact apart a mem a' mem' isTop isTop' place
    have listed : inOrder (blocks.filter (·.topLevel)) = t'.graph.topLevel := by
      refine inOrder_eq_of_perm (perm.filter _) ?_
      have ids := (perm.map Block.id).nodup_iff.2 (nodup_renamed renamed distinct)
      exact ids.sublist (List.filter_sublist.map Block.id)
    rw [← listed]
    refine ordered.imp fun a b same => ?_
    exact sameBlock_of_mem renamed closed (List.mem_filter.1 same.1).1 same.2

end

/-! ## Code -/

theorem seen_id (line : Line) : line.seen id = line := by
  cases line <;> simp [Line.seen]

/-- A likeness that changes no text keeps lines as they are. -/
theorem lines_eq {like : Likeness} (view : like.view = id) {scripts scripts' : List Script}
    (same : List.Forall₂ like.SameScript scripts scripts') :
    scripts.flatMap Script.lines = scripts'.flatMap Script.lines := by
  induction same with
  | nil => rfl
  | cons first _ ih =>
    simp only [Likeness.SameScript, Likeness.SameLines, view, funext seen_id, List.map_id'] at first
    rw [List.flatMap_cons, List.flatMap_cons, first, ih]

/-- Descriptors that differ in scripts with the same lines have the same code. -/
theorem code_eq {d d' : Descriptor} (others : d' = { d with scripts := d'.scripts })
    (lines : d.scriptLines = d'.scriptLines) : d.scriptCode = d'.scriptCode ∧ d.code = d'.code := by
  have heads : d.headLines = d'.headLines := by rw [others]; rfl
  have tails : d.tailLines = d'.tailLines := by rw [others]; rfl
  constructor
  · rw [Descriptor.scriptCode, Descriptor.scriptCode, lines]
  · rw [Descriptor.code, Descriptor.code, heads, lines, tails]

/-- The code of a descriptor depends on the blocks only through the lines of the scripts. -/
theorem descriptor_code_eq {t t' : Target} (others : t' = { t with graph := t'.graph })
    {scripts scripts' : List Script} (lines : scripts.flatMap Script.lines = scripts'.flatMap Script.lines) :
    (Compile.descriptor t scripts).scriptCode = (Compile.descriptor t' scripts').scriptCode ∧
      (Compile.descriptor t scripts).code = (Compile.descriptor t' scripts').code := by
  have held : ∀ (t : Target) scripts, (Compile.descriptor t scripts).scripts = scripts := by
    intro t scripts
    unfold Compile.descriptor
    cases t.isStage <;> rfl
  refine code_eq ?_ (by rw [Descriptor.scriptLines, Descriptor.scriptLines, held, held, lines])
  rw [held, others]
  unfold Compile.descriptor
  cases t.isStage <;> rfl

end Renaming

namespace Compile

open Outcome Renaming

/-- Block ids are only names. A target that was read and whose top-level blocks lie on different places
has the same code under other names, and findings of the same severities in the same order; or both fail
with errors of one kind. -/
theorem target_renamed {source : String} {project : Project} (read : Project.ofText source = .ok project)
    {t : Target} (mem : t ∈ project.targets)
    (apart : ∀ a ∈ t.graph.blocks, ∀ b ∈ t.graph.blocks, a.topLevel = true → b.topLevel = true →
      Graph.SamePlace a b → a = b)
    {f : BlockId → BlockId} {t' : Target} (renamed : t.Renamed f t') :
    ((∃ d d', (target t).result = .ok d ∧ (target t').result = .ok d' ∧
        d.scriptCode = d'.scriptCode ∧ d.code = d'.code) ∨
      ∃ e e', (target t).result = .error e ∧ (target t').result = .error e' ∧ e.kind = e'.kind) ∧
    (target t).raised.map Diagnostic.severity = (target t').raised.map Diagnostic.severity := by
  obtain ⟨json, readTarget⟩ := Project.ofJson_of_mem read t mem
  have closed := (Target.closed_of_ofJson readTarget).1
  have distinct := Project.nodup_of_ofText read t mem
  have others : t' = { t with graph := t'.graph } := by
    rw [renamed.others]
  have alike : Alike (fun d d' => d.scriptCode = d'.scriptCode ∧ d.code = d'.code) (target t) (target t') :=
    (Likeness.scripts (sameGraph renamed closed distinct apart)).bind fun _ _ same =>
      .pure (descriptor_code_eq others (lines_eq rfl same))
  refine ⟨?_, alike.severities⟩
  have result := alike.result
  generalize (target t).result = left at result ⊢
  generalize (target t').result = right at result ⊢
  cases result with
  | ok same => exact .inl ⟨_, _, rfl, rfl, same⟩
  | error kinds => exact .inr ⟨_, _, rfl, rfl, kinds⟩

/-- A script that shows the costume named by a position, which covers a menu. -/
def namedSource : String :=
  "\x7b\"targets\":[\x7b\"name\":\"S\",\"isStage\":false,\"blocks\":\x7b" ++
  "\"a\":\x7b\"opcode\":\"event_whenflagclicked\",\"next\":\"b\",\"topLevel\":true\x7d," ++
  "\"b\":\x7b\"opcode\":\"looks_switchcostumeto\",\"inputs\":\x7b\"COSTUME\":[3,\"c\",\"d\"]\x7d\x7d," ++
  "\"c\":\x7b\"opcode\":\"motion_xposition\"\x7d,\"d\":\x7b\"opcode\":\"looks_costume\"\x7d\x7d\x7d]\x7d"

/-- The source is read, and one of its targets passes a test. -/
def readsTarget (source : String) (test : Target → Bool) : Bool :=
  match Project.ofText source with
  | .ok project => project.targets.any test
  | .error _ => false

/-- A test that some target passes is evaluated on the source. -/
theorem exists_of_readsTarget {source : String} {test : Target → Bool}
    (reads : readsTarget source test = true) :
    ∃ project t, Project.ofText source = .ok project ∧ t ∈ project.targets ∧ test t = true := by
  unfold readsTarget at reads
  split at reads
  · rename_i project read
    obtain ⟨t, mem, passes⟩ := List.any_eq_true.1 reads
    exact ⟨project, t, read, mem, passes⟩
  · cases reads

/-- The target with two of its names exchanged and its blocks in the opposite order. -/
def exchanged (t : Target) : Target :=
  { t with graph := { t.graph with
      blocks := (t.graph.blocks.map (Block.renamed (Equiv.swap ⟨"a"⟩ ⟨"d"⟩))).reverse } }

/-- Two names of a script are exchanged and its blocks turned round. -/
theorem target_renamed_exchanged :
    ∃ project t d d', Project.ofText namedSource = .ok project ∧ t ∈ project.targets ∧
      t.graph.blocks.map Block.id = [⟨"a"⟩, ⟨"b"⟩, ⟨"c"⟩, ⟨"d"⟩] ∧
      (target t).result = .ok d ∧ (target (exchanged t)).result = .ok d' ∧ d.scriptCode = d'.scriptCode := by
  have reads : readsTarget namedSource (fun t =>
      t.graph.blocks.map Block.id == [⟨"a"⟩, ⟨"b"⟩, ⟨"c"⟩, ⟨"d"⟩] &&
        (t.graph.blocks.filter (·.topLevel)).length == 1 && (target t).result.toBool) = true := by
    decide +kernel
  obtain ⟨project, t, read, mem, passes⟩ := exists_of_readsTarget reads
  simp only [Bool.and_eq_true, beq_iff_eq] at passes
  obtain ⟨⟨names, lone⟩, compiled⟩ := passes
  obtain ⟨top, only⟩ := List.length_eq_one_iff.1 lone
  have apart : ∀ a ∈ t.graph.blocks, ∀ b ∈ t.graph.blocks, a.topLevel = true → b.topLevel = true →
      Graph.SamePlace a b → a = b := by
    intro a inA b inB topA topB _
    have first : a ∈ t.graph.blocks.filter (·.topLevel) := List.mem_filter.2 ⟨inA, topA⟩
    have second : b ∈ t.graph.blocks.filter (·.topLevel) := List.mem_filter.2 ⟨inB, topB⟩
    rw [only, List.mem_singleton] at first second
    rw [first, second]
  have renamed : t.Renamed (Equiv.swap ⟨"a"⟩ ⟨"d"⟩) (exchanged t) := by
    refine ⟨fun _ _ _ _ same => Equiv.injective _ same, ⟨_, ?_, (List.reverse_perm _).symm⟩, rfl⟩
    exact List.forall₂_map_right_iff.2 (List.forall₂_same.2 fun _ _ => rfl)
  obtain ⟨⟨d, d', isOk, isOk', code, -⟩ | ⟨e, -, failed, -⟩, -⟩ := target_renamed read mem apart renamed
  · exact ⟨project, t, d, d', read, mem, names, isOk, isOk', code⟩
  · rw [failed] at compiled
    cases compiled

end Compile

end ScratchPage
