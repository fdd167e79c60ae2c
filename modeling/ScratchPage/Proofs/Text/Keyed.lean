import ScratchPage.Text.Keyed

/-!
# Keys of association lists

Lists of pairs that are put together by `ofList` are in strictly increasing order of their keys, so no
key occurs twice.
-/

namespace ScratchPage.Keyed
set_option autoImplicit false

variable {α : Type} {key : String} {value : α} {pairs : List (String × α)}

/-- An insertion adds one pair. -/
theorem mem_of_mem_insertNew {pair : String × α} (mem : pair ∈ insertNew key value pairs) :
    pair = (key, value) ∨ pair ∈ pairs := by
  induction pairs with
  | nil => exact List.mem_cons.1 mem
  | cons first rest ih =>
    unfold insertNew at mem
    split at mem
    · exact List.mem_cons.1 mem
    · split at mem
      · exact .inr mem
      · obtain rfl | mem := List.mem_cons.1 mem
        · exact .inr (by simp)
        · exact (ih mem).imp id (List.mem_cons_of_mem first)

/-- An insertion keeps the order of the keys. -/
theorem pairwise_insertNew (sorted : pairs.Pairwise fun a b => a.1 < b.1) :
    (insertNew key value pairs).Pairwise fun a b => a.1 < b.1 := by
  induction pairs with
  | nil => exact List.pairwise_singleton _ _
  | cons first rest ih =>
    obtain ⟨least, others⟩ := List.pairwise_cons.1 sorted
    unfold insertNew
    split
    next before =>
      refine List.pairwise_cons.2 ⟨fun pair mem => ?_, sorted⟩
      obtain rfl | mem := List.mem_cons.1 mem
      · exact before
      · exact String.lt_trans before (least pair mem)
    next notBefore =>
      split
      · exact sorted
      next other =>
        refine List.pairwise_cons.2 ⟨fun pair mem => ?_, ih others⟩
        obtain rfl | mem := mem_of_mem_insertNew mem
        · exact Std.lt_of_le_of_ne (String.not_lt.1 notBefore) (Ne.symm other)
        · exact least pair mem

theorem pairwise_ofList (pairs : List (String × α)) : (ofList pairs).Pairwise fun a b => a.1 < b.1 := by
  induction pairs with
  | nil => exact .nil
  | cons first rest ih => exact pairwise_insertNew ih

theorem mem_of_mem_ofList {pair : String × α} (mem : pair ∈ ofList pairs) : pair ∈ pairs := by
  induction pairs with
  | nil => exact mem
  | cons first rest ih =>
    rcases mem_of_mem_insertNew mem with rfl | mem
    · exact List.mem_cons_self
    · exact List.mem_cons_of_mem first (ih mem)

theorem nodup_keys (pairs : List (String × α)) : ((ofList pairs).map (·.1)).Nodup := by
  refine List.pairwise_map.2 ((pairwise_ofList pairs).imp ?_)
  intro a b before same
  exact String.lt_irrefl _ (same ▸ before)

/-- The last one of the pairs with its key. -/
def LastUnder (pairs : List (String × α)) (pair : String × α) : Prop :=
  ∃ before after, pairs = before ++ pair :: after ∧ ∀ later ∈ after, later.1 ≠ pair.1

/-- An insertion adds the pair if its key is new. -/
theorem mem_insertNew_iff (sorted : pairs.Pairwise fun a b => a.1 < b.1) {pair : String × α} :
    pair ∈ insertNew key value pairs ↔
      pair ∈ pairs ∨ pair = (key, value) ∧ ∀ other ∈ pairs, other.1 ≠ key := by
  induction pairs with
  | nil => simp [insertNew]
  | cons first rest ih =>
    obtain ⟨least, others⟩ := List.pairwise_cons.1 sorted
    unfold insertNew
    split
    next before =>
      have new : ∀ other ∈ first :: rest, other.1 ≠ key := by
        rintro other mem rfl
        obtain rfl | mem := List.mem_cons.1 mem
        · exact String.lt_irrefl _ before
        · exact String.lt_asymm before (least other mem)
      rw [List.mem_cons, or_comm, and_iff_left new]
    next =>
      split
      next same =>
        refine ⟨.inl, fun either => either.elim id fun ⟨_, new⟩ => ?_⟩
        exact absurd same.symm (new first List.mem_cons_self)
      next other =>
        rw [List.mem_cons, List.mem_cons, ih others, List.forall_mem_cons, and_iff_right (Ne.symm other),
          or_assoc]

/-- No key gets lost. -/
theorem exists_mem_ofList {pair : String × α} (mem : pair ∈ pairs) : ∃ kept ∈ ofList pairs, kept.1 = pair.1 := by
  induction pairs with
  | nil => cases mem
  | cons first rest ih =>
    rw [ofList]
    obtain rfl | mem := List.mem_cons.1 mem
    · by_cases new : ∀ other ∈ ofList rest, other.1 ≠ pair.1
      · exact ⟨pair, (mem_insertNew_iff (pairwise_ofList rest)).2 (.inr ⟨rfl, new⟩), rfl⟩
      · obtain ⟨kept, inside, same⟩ : ∃ kept ∈ ofList rest, kept.1 = pair.1 := by simpa using new
        exact ⟨kept, (mem_insertNew_iff (pairwise_ofList rest)).2 (.inl inside), same⟩
    · obtain ⟨kept, inside, same⟩ := ih mem
      exact ⟨kept, (mem_insertNew_iff (pairwise_ofList rest)).2 (.inl inside), same⟩

/-- Of the pairs with one key the last one is kept. -/
theorem mem_ofList_iff {pair : String × α} : pair ∈ ofList pairs ↔ LastUnder pairs pair := by
  induction pairs with
  | nil => simp [ofList, LastUnder]
  | cons first rest ih =>
    rw [ofList, mem_insertNew_iff (pairwise_ofList rest), ih]
    constructor
    · rintro (⟨before, after, rfl, last⟩ | ⟨rfl, new⟩)
      · exact ⟨first :: before, after, rfl, last⟩
      · refine ⟨[], rest, rfl, fun later mem same => ?_⟩
        obtain ⟨kept, inside, key_eq⟩ := exists_mem_ofList mem
        exact new kept inside (key_eq.trans same)
    · rintro ⟨before, after, split, last⟩
      cases before with
      | nil =>
        cases split
        exact .inr ⟨rfl, fun other mem => last other (mem_of_mem_ofList mem)⟩
      | cons _ before =>
        cases split
        exact .inl ⟨before, after, rfl, last⟩

theorem mem_of_find? (found : find? pairs key = some value) : (key, value) ∈ pairs := by
  obtain ⟨⟨key', value'⟩, first, rfl⟩ := Option.map_eq_some_iff.1 found
  obtain rfl : key' = key := by simpa using List.find?_some first
  exact List.mem_of_find?_eq_some first

end ScratchPage.Keyed
