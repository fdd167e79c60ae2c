import Mathlib.Data.List.Forall2
import Mathlib.Data.List.Sort
import ScratchPage.Proofs.Block.References

/-!
# Canvas order

Blocks on the canvas are taken by height, then from the left, then by name. Blocks with different names
are always told apart, so the order of the top-level blocks does not depend on the order in which a
target lists its blocks: it is a matter of which blocks there are.
-/

namespace ScratchPage.Graph
set_option autoImplicit false

/-- Two blocks lie on the same place of the canvas. -/
def SamePlace (a b : Block) : Prop :=
  Binary.orderKey a.y = Binary.orderKey b.y ∧ Binary.orderKey a.x = Binary.orderKey b.x

/-- The second block does not come before the first. -/
def NotAfter (a b : Block) : Prop := comesBefore b a = false

instance : DecidableRel NotAfter := fun a b => inferInstanceAs (Decidable (comesBefore b a = false))

theorem comesBefore_iff {a b : Block} : comesBefore a b = true ↔
    Binary.orderKey a.y < Binary.orderKey b.y ∨ Binary.orderKey a.y = Binary.orderKey b.y ∧
      (Binary.orderKey a.x < Binary.orderKey b.x ∨ Binary.orderKey a.x = Binary.orderKey b.x ∧
        a.id.name < b.id.name) := by
  simp [comesBefore]

/-- A block does not come after another one if it is higher, or as high and further left, or in the same place
and first by name. -/
theorem notAfter_iff {a b : Block} : NotAfter a b ↔
    Binary.orderKey a.y < Binary.orderKey b.y ∨ Binary.orderKey a.y = Binary.orderKey b.y ∧
      (Binary.orderKey a.x < Binary.orderKey b.x ∨ Binary.orderKey a.x = Binary.orderKey b.x ∧
        a.id.name ≤ b.id.name) := by
  unfold NotAfter
  rw [← Bool.not_eq_true, comesBefore_iff, ← String.not_lt]
  rcases Int.lt_trichotomy (Binary.orderKey a.y) (Binary.orderKey b.y) with high | level | low
  · simp [high, Int.lt_asymm high, Int.ne_of_gt high]
  · rcases Int.lt_trichotomy (Binary.orderKey a.x) (Binary.orderKey b.x) with left | upright | right
    · simp [level, left, Int.lt_asymm left, Int.ne_of_gt left]
    · simp [level, upright]
    · simp [level, right, Int.lt_asymm right, Int.ne_of_gt right]
  · simp [low, Int.lt_asymm low, Int.ne_of_gt low]

instance : IsTrans Block NotAfter where
  trans a b c first second := by
    rw [notAfter_iff] at *
    have names := String.le_trans (a := a.id.name) (b := b.id.name) (c := c.id.name)
    rcases first with high | ⟨level, left | ⟨upright, name⟩⟩ <;>
      rcases second with high' | ⟨level', left' | ⟨upright', name'⟩⟩ <;>
        first
          | exact .inr ⟨level.trans level', .inr ⟨upright.trans upright', names name name'⟩⟩
          | omega

instance : Std.Total NotAfter where
  total a b := by
    rw [notAfter_iff, notAfter_iff]
    rcases String.le_total a.id.name b.id.name with name | name
    · simp only [name, and_true]
      omega
    · simp only [name, and_true]
      omega

/-- Blocks that stand in both orders have the same place and the same name. -/
theorem NotAfter.antisymm {a b : Block} (first : NotAfter a b) (second : NotAfter b a) :
    SamePlace a b ∧ a.id = b.id := by
  rw [notAfter_iff] at first second
  rcases first with high | ⟨level, left | ⟨upright, name⟩⟩
  · omega
  · omega
  · rcases second with high' | ⟨level', left' | ⟨upright', name'⟩⟩
    · omega
    · omega
    · have same := String.le_antisymm name name'
      exact ⟨⟨level, upright⟩, congrArg BlockId.mk same⟩

/-- The canvas is sorted as the library sorts by insertion, so its lemmas apply. -/
theorem inOrder_eq_insertionSort (blocks : List Block) :
    inOrder blocks = blocks.insertionSort NotAfter := by
  have insert : ∀ (block : Block) (rest : List Block),
      insertInOrder block rest = rest.orderedInsert NotAfter block := by
    intro block rest
    induction rest with
    | nil => rfl
    | cons b rest ih =>
      rw [insertInOrder, List.orderedInsert_cons, ih]
      cases order : comesBefore b block <;> simp [NotAfter, order]
  induction blocks with
  | nil => rfl
  | cons b rest ih =>
    rw [List.insertionSort_cons, ← ih, ← insert]
    rfl

theorem perm_inOrder (blocks : List Block) : (inOrder blocks).Perm blocks := by
  rw [inOrder_eq_insertionSort]
  exact List.perm_insertionSort _ _

theorem pairwise_inOrder (blocks : List Block) : (inOrder blocks).Pairwise NotAfter := by
  rw [inOrder_eq_insertionSort]
  exact List.pairwise_insertionSort _ _

/-- The order of blocks with different names does not depend on how they are listed. -/
theorem inOrder_eq_of_perm {blocks blocks' : List Block} (perm : blocks.Perm blocks')
    (distinct : (blocks.map Block.id).Nodup) : inOrder blocks = inOrder blocks' := by
  have sorted := (perm_inOrder blocks).trans (perm.trans (perm_inOrder blocks').symm)
  refine sorted.eq_of_pairwise ?_ (pairwise_inOrder blocks) (pairwise_inOrder blocks')
  intro a b inLeft inRight first second
  have left : a ∈ blocks := mem_inOrder inLeft
  have right : b ∈ blocks := perm.mem_iff.2 (mem_inOrder inRight)
  exact List.inj_on_of_nodup_map distinct left right (first.antisymm second).2

/-- Blocks in canvas order, when the order is the same on both sides. -/
theorem forall₂_inOrder {related : Block → Block → Prop} {blocks blocks' : List Block}
    (same : List.Forall₂ related blocks blocks')
    (order : ∀ {a b a' b'}, related a b → related a' b' → comesBefore a a' = comesBefore b b') :
    List.Forall₂ related (inOrder blocks) (inOrder blocks') := by
  have insert : ∀ {a b rest rest'}, related a b → List.Forall₂ related rest rest' →
      List.Forall₂ related (insertInOrder a rest) (insertInOrder b rest') := by
    intro a b rest rest' first others
    induction others with
    | nil => exact .cons first .nil
    | @cons c d rest rest' second others ih =>
      simp only [insertInOrder, order second first]
      split
      · exact .cons second ih
      · exact .cons first (.cons second others)
  induction same with
  | nil => exact .nil
  | cons first _ ih => exact insert first ih

/-! ## Blocks found by name -/

variable {graph graph' : Graph}

/-- A block of a graph without equal names is found under its name. -/
theorem find?_of_mem (distinct : (graph.blocks.map Block.id).Nodup) {block : Block}
    (mem : block ∈ graph.blocks) : graph.find? block.id = some block := by
  unfold find?
  obtain ⟨found, first⟩ : ∃ found, graph.blocks.find? (fun b => b.id == block.id) = some found :=
    Option.isSome_iff_exists.1 (List.find?_isSome.2 ⟨block, mem, by simp⟩)
  have same : found.id = block.id := by simpa using List.find?_some first
  rw [first, List.inj_on_of_nodup_map distinct (List.mem_of_find?_eq_some first) mem same]

theorem mem_topLevel_iff {block : Block} :
    block ∈ graph.topLevel ↔ block ∈ graph.blocks ∧ block.topLevel = true := by
  unfold topLevel
  rw [(perm_inOrder _).mem_iff, List.mem_filter]

/-- Graphs with the same top-level blocks have them in the same order. -/
theorem topLevel_eq (distinct : (graph.blocks.map Block.id).Nodup)
    (distinct' : (graph'.blocks.map Block.id).Nodup)
    (same : ∀ block : Block, block.topLevel = true → (block ∈ graph.blocks ↔ block ∈ graph'.blocks)) :
    graph.topLevel = graph'.topLevel := by
  have ids := (List.filter_sublist (p := (·.topLevel)) (l := graph.blocks)).map Block.id
  refine inOrder_eq_of_perm ?_ (distinct.sublist ids)
  rw [List.perm_ext_iff_of_nodup (distinct.of_map _ |>.filter _) (distinct'.of_map _ |>.filter _)]
  intro block
  rw [List.mem_filter, List.mem_filter]
  exact and_congr_left (same block)

end ScratchPage.Graph
