import ScratchPage.Block.Basic
import ScratchPage.Error

/-!
# The blocks of a target

Blocks refer to each other by id. Walks over these references keep the ids they have met;
`unvisited` counts the blocks that a walk has not met yet and bounds its length, because a walk stops
at a block it meets again.
-/

namespace ScratchPage
set_option autoImplicit false

/-- The blocks of a target, with the target's name for messages. -/
structure Graph where
  target : String
  blocks : List Block

namespace Graph

def find? (graph : Graph) (id : BlockId) : Option Block := graph.blocks.find? fun b => b.id == id

/-- The block with an id. -/
def get (graph : Graph) (id : BlockId) : Except CompileError Block :=
  match graph.find? id with
  | some block => .ok block
  | none => .error (.unknownBlock graph.target id)

/-! ## Walks -/

/-- The number of blocks whose ids are not among those met. -/
def unvisited (graph : Graph) (met : List BlockId) : Nat :=
  (graph.blocks.filter fun b => !met.contains b.id).length

theorem length_filter_lt {α : Type} {p q : α → Bool} {l : List α} (sub : ∀ a, p a = true → q a = true)
    {a : α} (mem : a ∈ l) (out : p a = false) (isIn : q a = true) :
    (l.filter p).length < (l.filter q).length := by
  induction l with
  | nil => simp at mem
  | cons b l ih =>
    have le : (l.filter p).length ≤ (l.filter q).length := by
      rw [← List.countP_eq_length_filter, ← List.countP_eq_length_filter]
      exact List.countP_mono_left fun x _ => sub x
    rcases List.mem_cons.1 mem with rfl | tail
    · simp only [List.filter_cons, out, isIn, Bool.false_eq_true, ↓reduceIte, List.length_cons]
      omega
    · have lt := ih tail
      cases hp : p b with
      | true => simp only [List.filter_cons, hp, sub b hp, ↓reduceIte, List.length_cons]; omega
      | false =>
        cases hq : q b <;>
          simp only [List.filter_cons, hp, hq, Bool.false_eq_true, ↓reduceIte, List.length_cons] <;> omega

/-- Meeting a block for the first time leaves fewer blocks to meet. -/
theorem unvisited_cons_lt {graph : Graph} {met : List BlockId} {id : BlockId} {block : Block}
    (found : graph.find? id = some block) (new : id ∉ met) :
    graph.unvisited (id :: met) < graph.unvisited met := by
  have same : block.id = id := by simpa using List.find?_some found
  refine length_filter_lt (a := block) (fun b h => ?_) (List.mem_of_find?_eq_some found) ?_ ?_
  · simp only [List.contains_cons, Bool.not_or, Bool.and_eq_true] at h
    exact h.2
  · simp [same]
  · simpa [same] using new

/-- The blocks from an id along their links to the next block, given the ids met before. -/
def walk (graph : Graph) (met : List BlockId) (id : BlockId) : Except CompileError (List Block) :=
  match _found : graph.find? id with
  | none => .error (.unknownBlock graph.target id)
  | some block =>
    if _seen : id ∈ met then .error (.cyclicChain graph.target id)
    else
      match block.next with
      | none => .ok [block]
      | some next => (walk graph (id :: met) next).map (block :: ·)
termination_by graph.unvisited met
decreasing_by exact unvisited_cons_lt _found _seen

/-- The chain that starts at a block; no start gives no blocks. -/
def chain (graph : Graph) : Option BlockId → Except CompileError (List Block)
  | some start => graph.walk [] start
  | none => .ok []

/-! ## Canvas order -/

/-- One block comes before another on the canvas: by height, then from the left, then by id. -/
def comesBefore (a b : Block) : Bool :=
  let ya := Binary.orderKey a.y
  let yb := Binary.orderKey b.y
  let xa := Binary.orderKey a.x
  let xb := Binary.orderKey b.x
  decide (ya < yb) || (ya == yb && (decide (xa < xb) || (xa == xb && decide (a.id.name < b.id.name))))

/-- Puts a block into a list in canvas order. -/
def insertInOrder (block : Block) : List Block → List Block
  | [] => [block]
  | b :: rest => if comesBefore b block then b :: insertInOrder block rest else block :: b :: rest

/-- Blocks in canvas order. -/
def inOrder (blocks : List Block) : List Block := blocks.foldr insertInOrder []

/-- The blocks that no other block holds, in canvas order. -/
def topLevel (graph : Graph) : List Block := inOrder (graph.blocks.filter (·.topLevel))

/-! ## References -/

/-- All ids of a list name blocks of the graph. -/
def resolveAll (graph : Graph) : List BlockId → Except CompileError Unit
  | [] => .ok ()
  | id :: rest =>
    match graph.get id with
    | .ok _ => graph.resolveAll rest
    | .error e => .error e

/-- Every reference of every block names a block of the graph. -/
def resolve (graph : Graph) : Except CompileError Unit :=
  graph.resolveAll (graph.blocks.flatMap Block.references)

end Graph

end ScratchPage
