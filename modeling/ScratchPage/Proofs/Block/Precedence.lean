import ScratchPage.Proofs.Block.Canvas
import ScratchPage.Proofs.Text.Bytes

/-!
# Top-level blocks one before the other

The canvas order in terms of what is stored: coordinates are compared by their bit patterns, so that a negative
zero lies before zero, and ids by their bytes. Blocks of a target have different ids, so of two top-level
blocks one always precedes the other, and how the blocks are listed does not matter.
-/

namespace ScratchPage
set_option autoImplicit false

namespace Binary

variable {a b : Float}

/-- The total order of doubles: negative ones come first, and among them those of greater magnitude. -/
def TotalLt (a b : Float) : Prop :=
  match isNegative a, isNegative b with
  | true, false => True
  | false, true => False
  | false, false => magnitudeBits a < magnitudeBits b
  | true, true => magnitudeBits b < magnitudeBits a

theorem orderKey_lt_iff : orderKey a < orderKey b ↔ TotalLt a b := by
  unfold orderKey TotalLt
  cases isNegative a <;> cases isNegative b <;> simp
  all_goals omega

/-- Doubles take the same place in the total order only if they are the same double. -/
theorem orderKey_eq_iff : orderKey a = orderKey b ↔ a.toBits = b.toBits := by
  have highA := a.toBits.toNat_lt
  have highB := b.toBits.toNat_lt
  rw [← UInt64.toNat_inj]
  unfold orderKey isNegative magnitudeBits
  simp only [decide_eq_true_eq]
  split_ifs <;> omega

end Binary

namespace Graph

/-- One block comes before another: by height, then from the left, then by the bytes of its id. -/
def Precedes (a b : Block) : Prop :=
  Binary.TotalLt a.y b.y ∨ a.y.toBits = b.y.toBits ∧
    (Binary.TotalLt a.x b.x ∨ a.x.toBits = b.x.toBits ∧ Text.bytes a.id.name < Text.bytes b.id.name)

theorem comesBefore_iff_precedes {a b : Block} : comesBefore a b = true ↔ Precedes a b := by
  rw [comesBefore_iff, Precedes, Binary.orderKey_lt_iff, Binary.orderKey_lt_iff, Binary.orderKey_eq_iff,
    Binary.orderKey_eq_iff, Text.bytes_lt_iff]

/-- Of blocks with different ids, one that does not come after the other precedes it. -/
theorem NotAfter.precedes {a b : Block} (order : NotAfter a b) (other : a.id ≠ b.id) : Precedes a b := by
  rw [← comesBefore_iff_precedes, comesBefore_iff]
  rw [notAfter_iff] at order
  have names : a.id.name ≤ b.id.name → a.id.name < b.id.name := fun le =>
    Std.lt_of_le_of_ne le fun same => other (congrArg BlockId.mk same)
  exact order.imp id (And.imp id (Or.imp id (And.imp id names)))

variable {graph : Graph}

theorem nodup_ids_topLevel (distinct : (graph.blocks.map Block.id).Nodup) :
    (graph.topLevel.map Block.id).Nodup := by
  have order : (graph.topLevel.map Block.id).Perm ((graph.blocks.filter (·.topLevel)).map Block.id) :=
    (perm_inOrder _).map Block.id
  exact order.nodup_iff.2 (distinct.sublist (List.filter_sublist.map Block.id))

theorem pairwise_precedes (distinct : (graph.blocks.map Block.id).Nodup) : graph.topLevel.Pairwise Precedes := by
  have ids : graph.topLevel.Pairwise fun a b => a.id ≠ b.id := List.pairwise_map.1 (nodup_ids_topLevel distinct)
  exact ((pairwise_inOrder _).and ids).imp fun both => both.1.precedes both.2

end Graph

end ScratchPage
