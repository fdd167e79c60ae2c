import Mathlib.Logic.Relation
import ScratchPage.Project
import ScratchPage.Proofs.Json.Keys

/-!
# References between blocks

A block leads to the block after it and to the blocks in its slots. Walks along these references fail
in two ways only: at an id that names no block, and at a block that lies on a cycle. In the graphs of
projects that were read from a file every reference names a block, because the reader checks them.
-/

namespace ScratchPage
set_option autoImplicit false

open Relation

/-- A slot of the block holds the block with this id. -/
def Block.Holds (block : Block) (id : BlockId) : Prop :=
  ∃ slot input, (slot, input) ∈ block.inputs ∧ input.blockId? = some id

theorem Block.mem_of_input? {block : Block} {slot : String} {input : Input}
    (found : block.input? slot = some input) : (slot, input) ∈ block.inputs :=
  Keyed.mem_of_find? found

theorem Block.holds_of_input? {block : Block} {slot : String} {input : Input} {id : BlockId}
    (found : block.input? slot = some input) (held : input.payload = .block id) : block.Holds id :=
  ⟨slot, input, mem_of_input? found, by simp [Input.blockId?, held, Payload.blockId?]⟩

theorem Block.mem_references {block : Block} {id : BlockId}
    (leads : block.next = some id ∨ block.Holds id) : id ∈ block.references := by
  unfold references
  rcases leads with after | ⟨slot, input, mem, held⟩
  · simp [after]
  · refine List.mem_append_right _ (List.mem_flatMap.2 ⟨(slot, input), mem, ?_⟩)
    simp [held]

theorem Block.mem_references_of_shadow {block : Block} {slot : String} {input : Input}
    {cover id : BlockId} (mem : (slot, input) ∈ block.inputs) (payload : input.payload = .block cover)
    (shadow : input.shadow = some (.block id)) : id ∈ block.references := by
  refine List.mem_append_right _ (List.mem_flatMap.2 ⟨(slot, input), mem, ?_⟩)
  simp [Input.blockId?, payload, shadow, Payload.blockId?]

namespace Graph

variable {graph : Graph}

/-- The block with the first id leads to the second. -/
def Edge (graph : Graph) (a b : BlockId) : Prop :=
  ∃ block, graph.find? a = some block ∧ (block.next = some b ∨ block.Holds b)

/-- The references from a block lead back to it. -/
def OnCycle (graph : Graph) (id : BlockId) : Prop := TransGen graph.Edge id id

/-- Some block of the graph refers to the id. -/
def Referenced (graph : Graph) (id : BlockId) : Prop :=
  ∃ block ∈ graph.blocks, block.next = some id ∨ block.Holds id

/-- The failures that references between blocks can cause. -/
inductive Broken (graph : Graph) : CompileError → Prop
  | lost {name : String} {id : BlockId} :
      graph.find? id = none → graph.Referenced id → Broken graph (.unknownBlock name id)
  | cycle {name : String} {id : BlockId} : graph.OnCycle id → Broken graph (.cyclicChain name id)

theorem id_of_find? {id : BlockId} {block : Block} (found : graph.find? id = some block) :
    block.id = id := by
  simpa using List.find?_some found

theorem Edge.referenced {a b : BlockId} (edge : graph.Edge a b) : graph.Referenced b := by
  obtain ⟨block, found, leads⟩ := edge
  exact ⟨block, List.mem_of_find?_eq_some found, leads⟩

/-- A block that cannot be got breaks the graph if something refers to it. -/
theorem broken_of_get {id : BlockId} {e : CompileError} (failed : graph.get id = .error e)
    (referenced : graph.Referenced id) : graph.Broken e := by
  unfold get at failed
  cases found : graph.find? id with
  | some block => simp [found] at failed
  | none =>
    rw [found] at failed
    cases failed
    exact .lost found referenced

/-- A graph has no cycles if every reference leads to a block of lower rank. -/
theorem not_onCycle_of_rank (rank : BlockId → Nat)
    (lower : ∀ block ∈ graph.blocks, ∀ id ∈ block.references, rank id < rank block.id) (id : BlockId) :
    ¬ graph.OnCycle id := by
  have edge : ∀ a b, graph.Edge a b → rank b < rank a := by
    rintro a b ⟨block, found, leads⟩
    have less := lower block (List.mem_of_find?_eq_some found) b (Block.mem_references leads)
    rwa [id_of_find? found] at less
  have path : ∀ {a b}, TransGen graph.Edge a b → rank b < rank a := by
    intro a b path
    induction path with
    | single step => exact edge _ _ step
    | tail _ step ih => exact Nat.lt_trans (edge _ _ step) ih
  exact fun cycle => Nat.lt_irrefl _ (path cycle)

/-! ## Walks -/

/-- The walk of a chain fails at a lost block or on a cycle. The invariant is that every id met so far leads to
the one at hand. -/
theorem walk_broken {met : List BlockId} {id : BlockId} {e : CompileError}
    (failed : graph.walk met id = .error e) (path : ∀ a ∈ met, TransGen graph.Edge a id)
    (referenced : graph.find? id = none → graph.Referenced id) : graph.Broken e := by
  fun_induction walk graph met id with
  | case1 met id found =>
    cases failed
    exact .lost found (referenced found)
  | case2 met id block found seen =>
    cases failed
    exact .cycle (path id seen)
  | case3 met id block found seen last => cases failed
  | case4 met id block found seen next after ih =>
    have edge : graph.Edge id next := ⟨block, found, .inl after⟩
    refine ih ?_ ?_ fun _ => edge.referenced
    · cases walked : graph.walk (id :: met) next with
      | ok blocks => simp [walked, Except.map] at failed
      | error e' => simpa [walked, Except.map] using failed
    · intro a mem
      rcases List.mem_cons.1 mem with rfl | mem
      · exact .single edge
      · exact (path a mem).tail edge

theorem chain_broken {start : BlockId} {e : CompileError} (failed : graph.chain (some start) = .error e)
    (referenced : graph.find? start = none → graph.Referenced start) : graph.Broken e :=
  walk_broken failed (by simp) referenced

/-- The blocks of a chain are found under their ids and reached from its start. -/
theorem walk_reaches {met : List BlockId} {id : BlockId} {blocks : List Block}
    (walked : graph.walk met id = .ok blocks) :
    ∀ block ∈ blocks, graph.find? block.id = some block ∧ ReflTransGen graph.Edge id block.id := by
  fun_induction walk graph met id generalizing blocks with
  | case1 | case2 => cases walked
  | case3 met id block found seen last =>
    cases walked
    have same := id_of_find? found
    simp [same, found, ReflTransGen.refl]
  | case4 met id block found seen next after ih =>
    have same := id_of_find? found
    have edge : graph.Edge id next := ⟨block, found, .inl after⟩
    cases more : graph.walk (id :: met) next with
    | error e => simp [more, Except.map] at walked
    | ok rest =>
      simp only [more, Except.map, Except.ok.injEq] at walked
      subst walked
      intro b mem
      rcases List.mem_cons.1 mem with rfl | mem
      · simp [same, found, ReflTransGen.refl]
      · obtain ⟨foundB, reach⟩ := ih more b mem
        exact ⟨foundB, reach.head edge⟩

/-! ## The canvas -/

/-- An insertion adds one block. -/
theorem mem_insertInOrder {a block : Block} {blocks : List Block}
    (mem : a ∈ insertInOrder block blocks) : a = block ∨ a ∈ blocks := by
  induction blocks with
  | nil => simpa [insertInOrder] using mem
  | cons b rest ih =>
    unfold insertInOrder at mem
    split at mem
    · rcases List.mem_cons.1 mem with rfl | mem
      · simp
      · rcases ih mem with same | mem <;> simp [*]
    · simpa using mem

theorem mem_inOrder {a : Block} {blocks : List Block} (mem : a ∈ inOrder blocks) : a ∈ blocks := by
  induction blocks with
  | nil => simp [inOrder] at mem
  | cons b rest ih =>
    rcases mem_insertInOrder mem with rfl | mem
    · simp
    · simp [ih mem]

theorem mem_topLevel {block : Block} (mem : block ∈ graph.topLevel) : block ∈ graph.blocks :=
  (List.mem_filter.1 (mem_inOrder mem)).1

/-! ## Closed graphs -/

/-- Every reference of every block names a block of the graph. -/
def Closed (graph : Graph) : Prop :=
  ∀ block ∈ graph.blocks, ∀ id ∈ block.references, ∃ held, graph.find? id = some held

theorem Closed.find? (closed : graph.Closed) {id : BlockId} (referenced : graph.Referenced id) :
    ∃ held, graph.find? id = some held := by
  obtain ⟨block, mem, leads⟩ := referenced
  exact closed block mem id (Block.mem_references leads)

theorem find?_of_get {id : BlockId} {block : Block} (found : graph.get id = .ok block) :
    graph.find? id = some block := by
  unfold get at found
  split at found
  · cases found
    assumption
  · cases found

/-- Once ids are resolved, each of them has a block. -/
theorem resolveAll_ok {ids : List BlockId} (resolved : graph.resolveAll ids = .ok ()) :
    ∀ id ∈ ids, ∃ block, graph.find? id = some block := by
  induction ids with
  | nil => simp
  | cons id ids ih =>
    unfold resolveAll at resolved
    cases found : graph.get id with
    | error e => simp [found] at resolved
    | ok block =>
      simp only [found] at resolved
      simpa using ⟨⟨block, find?_of_get found⟩, ih resolved⟩

theorem closed_of_resolve (resolved : graph.resolve = .ok ()) : graph.Closed := by
  intro block mem id reference
  exact resolveAll_ok resolved id (List.mem_flatMap.2 ⟨block, mem, reference⟩)

end Graph

/-! ## Graphs of projects -/

theorem except_bind_eq_ok {ε α β : Type} {x : Except ε α} {f : α → Except ε β} {b : β} :
    x >>= f = .ok b ↔ ∃ a, x = .ok a ∧ f a = .ok b := by
  cases x <;> simp [bind, Except.bind]

/-- Only blocks cover anything. -/
def Input.Proper (input : Input) : Prop :=
  ∀ payload, input.shadow = some payload → ∃ id, input.payload = .block id

/-- A shadow is read only beside a block, so inputs are proper whatever their form. -/
theorem Input.proper_of_ofJson {json : Json} {input : Input} (read : Input.ofJson json = .ok input) :
    input.Proper := by
  unfold Input.ofJson at read
  split at read
  · simp only at read
    split at read
    · split at read
      · cases read
      · split at read
        · cases read
          exact fun _ _ => ⟨_, rfl⟩
        · cases read
      · cases read
        rintro _ ⟨⟩
    · cases read
  · cases read
  · cases read

/-- All inputs of a block are proper, field after field. -/
theorem Block.proper_of_readInputs {block : BlockId} {pairs : List (String × Json)}
    {inputs : List (String × Input)} (read : readInputs block pairs = .ok inputs) :
    ∀ pair ∈ inputs, pair.2.Proper := by
  induction pairs generalizing inputs with
  | nil =>
    cases read
    simp
  | cons pair pairs ih =>
    obtain ⟨slot, json⟩ := pair
    unfold readInputs at read
    cases first : Input.ofJson json with
    | error fault => simp [first] at read
    | ok input =>
      cases rest : readInputs block pairs with
      | error e => simp [first, rest, Except.map] at read
      | ok more =>
        simp only [first, rest, Except.map, Except.ok.injEq] at read
        subst read
        rw [List.forall_mem_cons]
        exact ⟨Input.proper_of_ofJson first, ih rest⟩

/-- A block that was read has the inputs and the signature of its object, and the id it was read under. -/
theorem Block.parts_of_ofJson {id : BlockId} {json : Json} {block : Block} (read : ofJson id json = .ok block) :
    (∃ pairs, readInputs id pairs = .ok block.inputs) ∧
      Signature.ofMutation id (json.get? "mutation") = .ok block.signature ∧ block.id = id := by
  unfold ofJson at read
  cases object : json.asObject? with
  | none => simp [object] at read
  | some fields =>
    cases opcode : (json.get? "opcode").bind Json.asString? with
    | none => simp [object, opcode] at read
    | some name =>
      simp only [object, opcode, except_bind_eq_ok] at read
      obtain ⟨pairs, -, inputs, held, _, -, _, -, signature, carried, done⟩ := read
      cases done
      exact ⟨⟨pairs, held⟩, carried, rfl⟩

theorem Block.proper_of_ofJson {id : BlockId} {json : Json} {block : Block}
    (read : ofJson id json = .ok block) : ∀ pair ∈ block.inputs, pair.2.Proper := by
  obtain ⟨⟨pairs, held⟩, -⟩ := parts_of_ofJson read
  exact proper_of_readInputs held

/-- The inputs of all blocks of a target are proper, block after block. -/
theorem Target.proper_of_readBlocks {pairs : List (String × Json)} {blocks : List Block}
    (read : readBlocks pairs = .ok blocks) : ∀ block ∈ blocks, ∀ pair ∈ block.inputs, pair.2.Proper := by
  fun_induction readBlocks pairs generalizing blocks with
  | case1 =>
    cases read
    simp
  | case2 id items rest ih => exact ih read
  | case3 => cases read
  | case4 id json rest _ block first ih =>
    cases more : readBlocks rest with
    | error e => simp [more, Except.map] at read
    | ok others =>
      simp only [more, Except.map, Except.ok.injEq] at read
      subst read
      rw [List.forall_mem_cons]
      exact ⟨Block.proper_of_ofJson first, ih more⟩

/-- The references of a target that was read name blocks, and only blocks cover anything. -/
theorem Target.closed_of_ofJson {json : Json} {target : Target} (read : ofJson json = .ok target) :
    target.graph.Closed ∧ ∀ block ∈ target.graph.blocks, ∀ pair ∈ block.inputs, pair.2.Proper := by
  unfold ofJson at read
  cases named : (json.get? "name").bind Json.asString? with
  | none => simp [named] at read
  | some name =>
    cases marked : (json.get? "isStage").bind Json.asBool? with
    | none => simp [named, marked] at read
    | some isStage =>
      simp only [named, marked, except_bind_eq_ok] at read
      obtain ⟨pairs, -, blocks, readBlocks, ⟨⟩, resolved, done⟩ := read
      cases done
      exact ⟨Graph.closed_of_resolve resolved, proper_of_readBlocks readBlocks⟩

/-- Each target comes from an item of the array, whether or not a stage was found before it. -/
theorem Project.ofJson_of_mem_readTargets {stage : Option String} {items : List Json}
    {targets : List Target} (read : readTargets stage items = .ok targets) :
    ∀ target ∈ targets, ∃ json ∈ items, Target.ofJson json = .ok target := by
  induction items generalizing stage targets with
  | nil =>
    cases read
    simp
  | cons json items ih =>
    simp only [readTargets, except_bind_eq_ok] at read
    obtain ⟨first, readFirst, read⟩ := read
    have others : ∃ stage' rest, readTargets stage' items = .ok rest ∧ targets = first :: rest := by
      split at read
      · split at read
        · cases read
        · obtain ⟨rest, more, done⟩ := except_bind_eq_ok.1 read
          cases done
          exact ⟨_, rest, more, rfl⟩
      · obtain ⟨rest, more, done⟩ := except_bind_eq_ok.1 read
        cases done
        exact ⟨_, rest, more, rfl⟩
    obtain ⟨stage', rest, more, rfl⟩ := others
    rw [List.forall_mem_cons]
    refine ⟨⟨json, List.mem_cons_self, readFirst⟩, fun target mem => ?_⟩
    obtain ⟨other, isItem, read⟩ := ih more target mem
    exact ⟨other, List.mem_cons_of_mem json isItem, read⟩

/-- The targets of a project are read from the items of an array in its file. -/
theorem Project.readTargets_of_ofText {source : String} {project : Project}
    (read : ofText source = .ok project) :
    ∃ json items, Json.read? source = some json ∧
      (json.get? "targets").bind Json.asArray? = some items ∧
      readTargets none items = .ok project.targets := by
  unfold ofText at read
  cases isRead : Json.read? source with
  | none => simp [isRead] at read
  | some json =>
    simp only [isRead] at read
    unfold ofJson at read
    cases listed : (json.get? "targets").bind Json.asArray? with
    | none => simp [listed] at read
    | some items =>
      cases targets : readTargets none items with
      | error e => simp [listed, targets, Except.map] at read
      | ok found =>
        simp only [listed, targets, Except.map, Except.ok.injEq] at read
        subst read
        exact ⟨json, items, rfl, listed, targets⟩

theorem Project.ofJson_of_mem {source : String} {project : Project} (read : ofText source = .ok project) :
    ∀ target ∈ project.targets, ∃ json, Target.ofJson json = .ok target := by
  obtain ⟨_, items, -, -, targets⟩ := readTargets_of_ofText read
  intro target mem
  obtain ⟨json, -, readTarget⟩ := ofJson_of_mem_readTargets targets target mem
  exact ⟨json, readTarget⟩

/-! ## Names of blocks -/

/-- Blocks are read under the keys of their object, some of which are left out. -/
theorem Target.sublist_of_readBlocks {pairs : List (String × Json)} {blocks : List Block}
    (read : readBlocks pairs = .ok blocks) :
    (blocks.map fun block => block.id.name).Sublist (pairs.map (·.1)) := by
  fun_induction readBlocks pairs generalizing blocks with
  | case1 =>
    cases read
    exact .slnil
  | case2 id items rest ih => exact (ih read).cons id
  | case3 => cases read
  | case4 id json rest _ block first ih =>
    cases more : readBlocks rest with
    | error e => simp [more, Except.map] at read
    | ok others =>
      simp only [more, Except.map, Except.ok.injEq] at read
      subst read
      rw [List.map_cons, List.map_cons, (Block.parts_of_ofJson first).2.2]
      exact (ih more).cons_cons id

/-- Where the fields of an object differ, so do the ids of the blocks. -/
theorem Target.nodup_of_ofJson {json : Json} {target : Target} (distinct : json.Distinct)
    (read : ofJson json = .ok target) : (target.graph.blocks.map Block.id).Nodup := by
  unfold ofJson at read
  cases named : (json.get? "name").bind Json.asString? with
  | none => simp [named] at read
  | some name =>
    cases marked : (json.get? "isStage").bind Json.asBool? with
    | none => simp [named, marked] at read
    | some isStage =>
      simp only [named, marked, except_bind_eq_ok] at read
      obtain ⟨pairs, found, blocks, readBlocks, ⟨⟩, -, done⟩ := read
      cases done
      have keys : (pairs.map (·.1)).Nodup := by
        cases object : json.get? "blocks" with
        | none =>
          rw [object] at found
          cases found
          exact .nil
        | some inner =>
          rw [object] at found
          have inner := distinct.get? object
          cases inner with
          | object keys _ =>
            cases found
            exact keys
          | null | bool | number | string | array => cases found
      have names := keys.sublist (sublist_of_readBlocks readBlocks)
      refine List.pairwise_map.2 ((List.pairwise_map.1 names).imp fun apart same => ?_)
      exact apart (congrArg BlockId.name same)

/-- No two blocks of a target that was read have one name. -/
theorem Project.nodup_of_ofText {source : String} {project : Project} (read : ofText source = .ok project) :
    ∀ target ∈ project.targets, (target.graph.blocks.map Block.id).Nodup := by
  obtain ⟨json, items, isRead, listed, targets⟩ := readTargets_of_ofText read
  intro target mem
  obtain ⟨item, isItem, readTarget⟩ := ofJson_of_mem_readTargets targets target mem
  obtain ⟨array, found, isArray⟩ := Option.bind_eq_some_iff.1 listed
  have distinct := ((Json.distinct_of_read? isRead).get? found).asArray? isArray
  exact Target.nodup_of_ofJson (distinct item isItem) readTarget

end ScratchPage
