import ScratchPage.Proofs.Block.References

/-!
# Chains and the paths they follow

The links to the next block lead from a start along a path of ids (`path`), which knows nothing of the
blocks that were met before. A path ends at a block without a next one, at an id that names no block,
or it comes back to a block that it has visited and goes round for ever. A chain tells which of these
it is: the blocks of the path, the id that is missing, or the first block that is visited twice
(`chain_follows`). The three exclude each other, because equal places of a path are followed by equal
places.
-/

namespace ScratchPage.Graph
set_option autoImplicit false

/-! ## Paths -/

/-- The id at a place of the path that follows the links to the next block. -/
def path (graph : Graph) (start : BlockId) : Nat → Option BlockId
  | 0 => some start
  | n + 1 => ((graph.path start n).bind graph.find?).bind Block.next

/-- The path visits these blocks in this order, no two of them alike, and then ends. -/
structure Visits (graph : Graph) (start : BlockId) (blocks : List Block) : Prop where
  places : ∀ n, blocks[n]? = (graph.path start n).bind graph.find?
  ends : graph.path start blocks.length = none
  distinct : (blocks.map Block.id).Nodup

/-- The path comes back to a block, and before that it has not come back to any. -/
def ReturnsTo (graph : Graph) (start id : BlockId) : Prop :=
  ∃ n, graph.path start n = some id ∧ (∃ m < n, graph.path start m = some id) ∧
    ∀ k < n, ∀ m < k, graph.path start m ≠ graph.path start k

/-- The path comes to an id that names no block. It goes no further, so this is the first such id. -/
def Loses (graph : Graph) (start id : BlockId) : Prop :=
  ∃ n, graph.path start n = some id ∧ graph.find? id = none

section

variable {graph : Graph} {start id : BlockId}

/-- Equal places of a path are followed by equal places. -/
theorem path_add_congr {m n : Nat} (same : graph.path start m = graph.path start n) (k : Nat) :
    graph.path start (m + k) = graph.path start (n + k) := by
  induction k with
  | zero => exact same
  | succ k ih =>
    rw [← Nat.add_assoc, ← Nat.add_assoc, path, path, ih]

/-- Behind its end a path has no places. -/
theorem path_eq_none_of_le {m n : Nat} (ended : graph.path start m = none) (le : m ≤ n) :
    graph.path start n = none := by
  obtain ⟨k, rfl⟩ := Nat.exists_eq_add_of_le le
  induction k with
  | zero => exact ended
  | succ k ih => rw [← Nat.add_assoc, path, ih (Nat.le_add_right m k), Option.bind_none, Option.bind_none]

theorem lt_of_path_eq_some {m n : Nat} (ended : graph.path start m = none) (here : graph.path start n = some id) :
    n < m := by
  apply Nat.lt_of_not_le
  intro behind
  rw [path_eq_none_of_le ended behind] at here
  cases here

/-- An id that names no block is the last place of a path. -/
theorem path_succ_of_lost {n : Nat} (here : graph.path start n = some id) (lost : graph.find? id = none) :
    graph.path start (n + 1) = none := by
  rw [path, here, Option.bind_some, lost, Option.bind_none]

/-- Behind its start a path is the path from the next block, if there is one. -/
theorem path_succ {block : Block} (found : graph.find? start = some block) (n : Nat) :
    graph.path start (n + 1) = block.next.bind fun next => graph.path next n := by
  induction n with
  | zero =>
    rw [path, path, Option.bind_some, found, Option.bind_some]
    cases block.next <;> rfl
  | succ n ih =>
    rw [path, ih]
    cases block.next <;> rfl

theorem path_of_next {block : Block} {next : BlockId} (found : graph.find? start = some block)
    (after : block.next = some next) (n : Nat) : graph.path start (n + 1) = graph.path next n := by
  rw [path_succ found, after, Option.bind_some]

theorem path_of_last {block : Block} (found : graph.find? start = some block) (last : block.next = none)
    (n : Nat) : graph.path start (n + 1) = none := by
  rw [path_succ found, last, Option.bind_none]

end

/-! ## A path ends in one way -/

section

variable {graph : Graph} {start : BlockId}

theorem Visits.eq {blocks others : List Block} (first : graph.Visits start blocks)
    (second : graph.Visits start others) : blocks = others := by
  apply List.ext_getElem?
  intro n
  rw [first.places, second.places]

/-- The place of a block on the path, if it is visited. -/
theorem Visits.getElem?_id {blocks : List Block} (visits : graph.Visits start blocks) {n : Nat} {id : BlockId}
    (here : graph.path start n = some id) : (blocks.map Block.id)[n]? = some id := by
  have inside : n < blocks.length := lt_of_path_eq_some visits.ends here
  have block := visits.places n
  rw [here, Option.bind_some, List.getElem?_eq_getElem inside] at block
  rw [List.getElem?_map, List.getElem?_eq_getElem inside, Option.map_some, id_of_find? block.symm]

/-- A path whose blocks are all visited once and then ends never comes back. -/
theorem Visits.not_returnsTo {blocks : List Block} (visits : graph.Visits start blocks) {id : BlockId} :
    ¬ graph.ReturnsTo start id := by
  rintro ⟨n, here, ⟨m, earlier, there⟩, -⟩
  have inside : n < (blocks.map Block.id).length := by
    rw [List.length_map]
    exact lt_of_path_eq_some visits.ends here
  have same : (blocks.map Block.id)[m]? = (blocks.map Block.id)[n]? := by
    rw [visits.getElem?_id here, visits.getElem?_id there]
  have equal : m = n := (List.getElem?_inj (Nat.lt_trans earlier inside) visits.distinct).1 same
  omega

theorem Visits.not_loses {blocks : List Block} (visits : graph.Visits start blocks) {id : BlockId} :
    ¬ graph.Loses start id := by
  rintro ⟨n, here, lost⟩
  have block := visits.places n
  rw [here, Option.bind_some, lost, List.getElem?_eq_none_iff] at block
  have inside := lt_of_path_eq_some visits.ends here
  omega

/-- A path that comes back goes round, so it never comes to an id without a block. -/
theorem ReturnsTo.not_loses {id other : BlockId} (returns : graph.ReturnsTo start id) :
    ¬ graph.Loses start other := by
  rintro ⟨last, there, lost⟩
  obtain ⟨n, here, ⟨m, earlier, before⟩, -⟩ := returns
  have ended := path_succ_of_lost there lost
  have le : n < last + 1 := lt_of_path_eq_some ended here
  -- From the first visit on, the path takes as many steps to its last place as it takes beyond it from the second.
  have round := path_add_congr (before.trans here.symm) (last - m)
  rw [show m + (last - m) = last by omega, there] at round
  have beyond := lt_of_path_eq_some ended round.symm
  omega

/-- The id that a path comes back to is the first one, so there is only one. -/
theorem ReturnsTo.eq {id other : BlockId} (first : graph.ReturnsTo start id)
    (second : graph.ReturnsTo start other) : id = other := by
  obtain ⟨n, here, ⟨m, earlier, before⟩, distinct⟩ := first
  obtain ⟨n', here', ⟨m', earlier', before'⟩, distinct'⟩ := second
  have notLess : ¬ n < n' := fun less => distinct' n less m earlier (before.trans here.symm)
  have notLess' : ¬ n' < n := fun less => distinct n' less m' earlier' (before'.trans here'.symm)
  obtain rfl : n = n' := by omega
  exact Option.some.inj (here.symm.trans here')

/-- A path ends at the id without a block, so there is only one. -/
theorem Loses.eq {id other : BlockId} (first : graph.Loses start id) (second : graph.Loses start other) :
    id = other := by
  obtain ⟨n, here, lost⟩ := first
  obtain ⟨n', here', lost'⟩ := second
  have le := lt_of_path_eq_some (path_succ_of_lost here' lost') here
  have le' := lt_of_path_eq_some (path_succ_of_lost here lost) here'
  obtain rfl : n = n' := by omega
  exact Option.some.inj (here.symm.trans here')

end

/-! ## What a walk finds -/

section

variable {graph : Graph} {met : List BlockId} {id : BlockId}

/-- A walk that ends has visited the blocks of the path, none of which was met before. -/
theorem walk_visits {blocks : List Block} (walked : graph.walk met id = .ok blocks) :
    graph.Visits id blocks ∧ ∀ block ∈ blocks, block.id ∉ met := by
  fun_induction walk graph met id generalizing blocks with
  | case1 | case2 => cases walked
  | case3 met id block found seen last =>
    cases walked
    refine ⟨⟨fun n => ?_, path_of_last found last 0, by simp⟩, by simpa [id_of_find? found] using seen⟩
    cases n with
    | zero => rw [path, Option.bind_some, found]; rfl
    | succ n => rw [path_of_last found last]; rfl
  | case4 met id block found seen next after ih =>
    cases more : graph.walk (id :: met) next with
    | error e => simp [more, Except.map] at walked
    | ok rest =>
      simp only [more, Except.map, Except.ok.injEq] at walked
      subst walked
      obtain ⟨visits, fresh⟩ := ih more
      refine ⟨⟨fun n => ?_, ?_, ?_⟩, ?_⟩
      · cases n with
        | zero => rw [path, Option.bind_some, found]; rfl
        | succ n => rw [path_of_next found after, ← visits.places n, List.getElem?_cons_succ]
      · rw [List.length_cons, path_of_next found after, visits.ends]
      · rw [List.map_cons, List.nodup_cons, id_of_find? found]
        refine ⟨fun mem => ?_, visits.distinct⟩
        obtain ⟨b, isIn, same⟩ := List.mem_map.1 mem
        exact fresh b isIn (same ▸ List.mem_cons_self)
      · rw [List.forall_mem_cons, id_of_find? found]
        exact ⟨seen, fun b mem isMet => fresh b mem (List.mem_cons_of_mem id isMet)⟩

/-- The path comes to a block that was met before or that it has visited, and to no such block earlier. -/
def Rejoins (graph : Graph) (met : List BlockId) (start id : BlockId) : Prop :=
  ∃ n, graph.path start n = some id ∧ (id ∈ met ∨ ∃ m < n, graph.path start m = some id) ∧
    ∀ k < n, (∀ other ∈ graph.path start k, other ∉ met) ∧ ∀ m < k, graph.path start m ≠ graph.path start k

theorem Rejoins.returnsTo {start : BlockId} (rejoins : graph.Rejoins [] start id) : graph.ReturnsTo start id := by
  obtain ⟨n, here, again, fresh⟩ := rejoins
  exact ⟨n, here, again.resolve_left (List.not_mem_nil), fun k less => (fresh k less).2⟩

/-- One step of a walk: what the path from the next block rejoins, the path from this block rejoins. -/
theorem Rejoins.cons {block : Block} {next other : BlockId} (found : graph.find? id = some block)
    (after : block.next = some next) (new : id ∉ met) (rejoins : graph.Rejoins (id :: met) next other) :
    graph.Rejoins met id other := by
  obtain ⟨n, here, again, fresh⟩ := rejoins
  refine ⟨n + 1, by rw [path_of_next found after, here], ?_, fun k less => ?_⟩
  · obtain mem | ⟨m, earlier, there⟩ := again
    · obtain rfl | mem := List.mem_cons.1 mem
      · exact .inr ⟨0, n.succ_pos, rfl⟩
      · exact .inl mem
    · exact .inr ⟨m + 1, Nat.succ_lt_succ earlier, by rw [path_of_next found after, there]⟩
  · cases k with
    | zero =>
      refine ⟨fun first isFirst => ?_, fun m less => absurd less m.not_lt_zero⟩
      obtain rfl : id = first := Option.some.inj isFirst
      exact new
    | succ k =>
      obtain ⟨unmet, distinct⟩ := fresh k (Nat.lt_of_succ_lt_succ less)
      rw [path_of_next found after]
      refine ⟨fun place isPlace isMet => unmet place isPlace (List.mem_cons_of_mem id isMet), fun m earlier => ?_⟩
      cases m with
      | zero => exact fun same => unmet id same.symm List.mem_cons_self
      | succ m =>
        rw [path_of_next found after]
        exact distinct m (Nat.lt_of_succ_lt_succ earlier)

theorem Loses.cons {block : Block} {next other : BlockId} (found : graph.find? id = some block)
    (after : block.next = some next) (loses : graph.Loses next other) : graph.Loses id other := by
  obtain ⟨n, here, lost⟩ := loses
  exact ⟨n + 1, by rw [path_of_next found after, here], lost⟩

/-- A walk that fails has come to an id without a block or to a block for the second time. -/
theorem walk_fails {e : CompileError} (failed : graph.walk met id = .error e) :
    (∃ other, e = .cyclicChain graph.target other ∧ graph.Rejoins met id other) ∨
      ∃ other, e = .unknownBlock graph.target other ∧ graph.Loses id other := by
  fun_induction walk graph met id with
  | case1 met id lost =>
    cases failed
    exact .inr ⟨id, rfl, 0, rfl, lost⟩
  | case2 met id block found seen =>
    cases failed
    exact .inl ⟨id, rfl, 0, rfl, .inl seen, fun k less => absurd less k.not_lt_zero⟩
  | case3 => cases failed
  | case4 met id block found seen next after ih =>
    have deeper : graph.walk (id :: met) next = .error e := by
      cases walked : graph.walk (id :: met) next with
      | ok blocks => simp [walked, Except.map] at failed
      | error e' => simpa [walked, Except.map] using failed
    obtain ⟨other, rfl, rejoins⟩ | ⟨other, rfl, loses⟩ := ih deeper
    · exact .inl ⟨other, rfl, rejoins.cons found after seen⟩
    · exact .inr ⟨other, rfl, loses.cons found after⟩

end

/-! ## What a chain says -/

/-- A chain gives the blocks that the path visits, exactly if the path visits blocks, each once, and then
ends. It ends with a cycle exactly if the path comes back, and names the first block that is visited
twice; and with an unknown id exactly if the path comes to an id without a block, and names it. There
is no other outcome. -/
theorem chain_follows (graph : Graph) (start : BlockId) :
    (∀ blocks, graph.chain (some start) = .ok blocks ↔ graph.Visits start blocks) ∧
      (∀ id, graph.chain (some start) = .error (.cyclicChain graph.target id) ↔ graph.ReturnsTo start id) ∧
      (∀ id, graph.chain (some start) = .error (.unknownBlock graph.target id) ↔ graph.Loses start id) ∧
      ((∃ blocks, graph.chain (some start) = .ok blocks) ∨
        ∃ id, graph.chain (some start) = .error (.cyclicChain graph.target id) ∨
          graph.chain (some start) = .error (.unknownBlock graph.target id)) := by
  cases outcome : graph.chain (some start) with
  | ok blocks =>
    have visits := (walk_visits outcome).1
    refine ⟨fun others => ?_, fun id => ?_, fun id => ?_, .inl ⟨blocks, rfl⟩⟩
    · rw [Except.ok.injEq]
      exact ⟨fun same => same ▸ visits, visits.eq⟩
    · exact ⟨nofun, fun returns => absurd returns visits.not_returnsTo⟩
    · exact ⟨nofun, fun loses => absurd loses visits.not_loses⟩
  | error e =>
    obtain ⟨other, rfl, rejoins⟩ | ⟨other, rfl, loses⟩ := walk_fails outcome
    · have returns := rejoins.returnsTo
      refine ⟨fun blocks => ?_, fun id => ?_, fun id => ?_, .inr ⟨other, .inl rfl⟩⟩
      · exact ⟨nofun, fun visits => absurd returns visits.not_returnsTo⟩
      · simp only [Except.error.injEq, CompileError.cyclicChain.injEq, true_and]
        exact ⟨fun same => same ▸ returns, returns.eq⟩
      · exact ⟨nofun, fun loses => absurd loses returns.not_loses⟩
    · refine ⟨fun blocks => ?_, fun id => ?_, fun id => ?_, .inr ⟨other, .inr rfl⟩⟩
      · exact ⟨nofun, fun visits => absurd loses visits.not_loses⟩
      · exact ⟨nofun, fun returns => absurd loses returns.not_loses⟩
      · simp only [Except.error.injEq, CompileError.unknownBlock.injEq, true_and]
        exact ⟨fun same => same ▸ loses, loses.eq⟩

end ScratchPage.Graph
