import ScratchPage.Json.Reader
import ScratchPage.Proofs.Text.Keyed

/-!
# Objects without repeated keys

Whatever a text holds, the objects of the value that is read from it have no key twice: of several
fields with one key the reader keeps the last one.
-/

namespace ScratchPage.Json
set_option autoImplicit false

/-- No object in the value has a key twice. -/
inductive Distinct : Json → Prop
  | null : Distinct .null
  | bool (value : Bool) : Distinct (.bool value)
  | number (value : Number) : Distinct (.number value)
  | string (value : String) : Distinct (.string value)
  | array {items : List Json} : (∀ item ∈ items, Distinct item) → Distinct (.array items)
  | object {fields : List (String × Json)} : (fields.map (·.1)).Nodup →
      (∀ field ∈ fields, Distinct field.2) → Distinct (.object fields)

/-- A reader whose values have no key twice in any object. -/
def ReadsDistinct (item : List Char → Option (Json × List Char)) : Prop :=
  ∀ cs value rest, item cs = some (value, rest) → value.Distinct

theorem readScalar_distinct : ReadsDistinct readScalar := by
  intro cs value rest read
  unfold readScalar at read
  split at read <;>
    · obtain ⟨_, _, same⟩ := Option.map_eq_some_iff.1 read
      cases same
      constructor

/-- The run over the items of an array: what was read before has distinct keys, and so has each new item. -/
theorem readItems_distinct {item : List Char → Option (Json × List Char)} (items : ReadsDistinct item)
    {fuel : Nat} {done values : List Json} {cs rest : List Char}
    (before : ∀ value ∈ done, value.Distinct) (read : readItems item fuel done cs = some (values, rest)) :
    ∀ value ∈ values, value.Distinct := by
  induction fuel generalizing done cs with
  | zero => cases read
  | succ fuel ih =>
    unfold readItems at read
    obtain ⟨⟨value, after⟩, first, read⟩ := Option.bind_eq_some_iff.1 read
    have others : ∀ v ∈ value :: done, v.Distinct :=
      List.forall_mem_cons.2 ⟨items _ _ _ first, before⟩
    simp only at read
    split at read
    · exact ih others read
    · cases read
      intro v mem
      exact others v (List.mem_reverse.1 mem)
    · cases read

/-- The run over the fields of an object: the same for the values of the fields. -/
theorem readFields_distinct {item : List Char → Option (Json × List Char)} (items : ReadsDistinct item)
    {fuel : Nat} {done fields : List (String × Json)} {cs rest : List Char}
    (before : ∀ field ∈ done, field.2.Distinct)
    (read : readFields item fuel done cs = some (fields, rest)) :
    ∀ field ∈ fields, field.2.Distinct := by
  induction fuel generalizing done cs with
  | zero => cases read
  | succ fuel ih =>
    unfold readFields at read
    obtain ⟨⟨key, afterKey⟩, -, read⟩ := Option.bind_eq_some_iff.1 read
    obtain ⟨⟨value, after⟩, first, read⟩ := Option.bind_eq_some_iff.1 read
    have others : ∀ field ∈ (key, value) :: done, field.2.Distinct :=
      List.forall_mem_cons.2 ⟨items _ _ _ first, before⟩
    simp only at read
    split at read
    · exact ih others read
    · cases read
      intro field mem
      exact others field (List.mem_reverse.1 mem)
    · cases read

/-- The step for values, by induction on the depth. A later field with the same key replaces the earlier one. -/
theorem readValue_distinct (depth : Nat) : ReadsDistinct (readValue depth) := by
  induction depth with
  | zero => exact fun cs => readScalar_distinct (skipSpace cs)
  | succ depth ih =>
    intro cs value rest read
    unfold readValue at read
    split at read
    · split at read
      · cases read
        exact .array (by simp)
      · obtain ⟨⟨items, after⟩, read, same⟩ := Option.map_eq_some_iff.1 read
        cases same
        exact .array (readItems_distinct ih (by simp) read)
    · split at read
      · cases read
        exact .object (by simp) (by simp)
      · obtain ⟨⟨fields, after⟩, read, same⟩ := Option.map_eq_some_iff.1 read
        cases same
        refine .object (Keyed.nodup_keys fields) fun field mem => ?_
        exact readFields_distinct ih (by simp) read field (Keyed.mem_of_mem_ofList mem)
    · exact readScalar_distinct _ _ _ read

/-- A text is read as a value with distinct keys on all levels. -/
theorem distinct_of_read? {source : String} {value : Json} (read : read? source = some value) :
    value.Distinct := by
  unfold read? at read
  obtain ⟨⟨found, rest⟩, first, read⟩ := Option.bind_eq_some_iff.1 read
  simp only at read
  split at read
  · cases read
    exact readValue_distinct _ _ _ _ first
  · cases read

theorem Distinct.get? {value inner : Json} {key : String} (distinct : value.Distinct)
    (found : value.get? key = some inner) : inner.Distinct := by
  cases distinct with
  | object _ fields => exact fields _ (Keyed.mem_of_find? found)
  | null | bool | number | string | array => cases found

theorem Distinct.asArray? {value : Json} {items : List Json} (distinct : value.Distinct)
    (isArray : value.asArray? = some items) : ∀ item ∈ items, item.Distinct := by
  cases distinct with
  | array items =>
    cases isArray
    exact items
  | null | bool | number | string | object => cases isArray

end ScratchPage.Json
