import ScratchPage.Outcome

/-!
# Results of steps in sequence

A sequence of steps has the result of its last step, or the first error. So a property of what the
steps give is shown step by step, without regard to errors and findings (`Yields`).
-/

namespace ScratchPage.Outcome
set_option autoImplicit false

variable {α β : Type}

@[simp] theorem pure_result (a : α) : (pure a : Outcome α).result = .ok a := rfl

theorem bind_result (x : Outcome α) (f : α → Outcome β) :
    (x >>= f).result = x.result.bind fun a => (f a).result := by
  change (x.andThen f).result = _
  unfold andThen
  cases x.result <;> rfl

theorem bind_eq_ok {x : Outcome α} {f : α → Outcome β} {b : β} :
    (x >>= f).result = .ok b ↔ ∃ a, x.result = .ok a ∧ (f a).result = .ok b := by
  rw [bind_result]
  cases x.result <;> simp [Except.bind]

theorem bind_eq_error {x : Outcome α} {f : α → Outcome β} {e : CompileError} :
    (x >>= f).result = .error e ↔
      x.result = .error e ∨ ∃ a, x.result = .ok a ∧ (f a).result = .error e := by
  rw [bind_result]
  cases x.result <;> simp [Except.bind]

theorem bind_raised {x : Outcome α} {f : α → Outcome β} {a : α} (found : x.result = .ok a) :
    (x >>= f).raised = x.raised ++ (f a).raised := by
  change (x.andThen f).raised = _
  simp [andThen, found]

theorem exists_of_toBool {x : Except CompileError α} (succeeds : x.toBool = true) : ∃ a, x = .ok a := by
  cases x with
  | ok a => exact ⟨a, rfl⟩
  | error e => cases succeeds

/-- A loop that ends without an error has the results of all its steps. -/
theorem exists_of_forAll {step : α → Outcome β} {items : List α} {found : List β}
    (done : (Compiling.forAll step items : Outcome (List β)).result = .ok found) {a : α} (mem : a ∈ items) :
    ∃ b ∈ found, (step a).result = .ok b := by
  induction items generalizing found with
  | nil => cases mem
  | cons c items ih =>
    obtain ⟨b, first, done⟩ := bind_eq_ok.1 done
    obtain ⟨rest, others, last⟩ := bind_eq_ok.1 done
    cases last
    rcases List.mem_cons.1 mem with rfl | mem
    · exact ⟨b, List.mem_cons_self, first⟩
    · obtain ⟨d, isIn, here⟩ := ih others mem
      exact ⟨d, List.mem_cons_of_mem b isIn, here⟩

/-- A loop that ends without an error has one result for each step, in order. -/
theorem getElem?_of_forAll {step : α → Outcome β} {items : List α} {found : List β}
    (done : (Compiling.forAll step items : Outcome (List β)).result = .ok found) :
    found.length = items.length ∧
      ∀ (k : Nat) (a : α), items[k]? = some a → ∃ b, found[k]? = some b ∧ (step a).result = .ok b := by
  induction items generalizing found with
  | nil =>
    cases done
    simp
  | cons c items ih =>
    obtain ⟨b, first, done⟩ := bind_eq_ok.1 done
    obtain ⟨rest, others, last⟩ := bind_eq_ok.1 done
    cases last
    obtain ⟨length, each⟩ := ih others
    refine ⟨by simp [length], fun k a held => ?_⟩
    cases k with
    | zero =>
      obtain rfl : c = a := by simpa using held
      exact ⟨b, rfl, first⟩
    | succ k => exact each k a (by simpa using held)

/-- What a step gives, if it gives anything, has a property. -/
def Yields (x : Outcome α) (p : α → Prop) : Prop := ∀ a, x.result = .ok a → p a

namespace Yields

variable {p : α → Prop} {q : β → Prop}

theorem pure {a : α} (holds : p a) : (Pure.pure a : Outcome α).Yields p := by
  intro b done
  cases done
  exact holds

theorem fail {e : CompileError} : (Compiling.fail e : Outcome α).Yields p := by
  intro a done
  cases done

theorem attempt (x : Except CompileError α) : (Compiling.attempt x : Outcome α).Yields fun a => x = .ok a := by
  cases x with
  | ok a => exact pure rfl
  | error e => exact fail

theorem bind {x : Outcome α} {f : α → Outcome β} (first : x.Yields p) (next : ∀ a, p a → (f a).Yields q) :
    (x >>= f).Yields q := by
  intro b done
  obtain ⟨a, found, last⟩ := bind_eq_ok.1 done
  exact next a (first a found) b last

/-- A step of which nothing is known. -/
theorem after {x : Outcome α} {f : α → Outcome β} (next : ∀ a, (f a).Yields q) : (x >>= f).Yields q :=
  bind (p := fun _ => True) (fun _ _ => trivial) fun a _ => next a

/-- Steps for several items yield several results. -/
theorem forAll {step : α → Outcome β} {items : List α} (each : ∀ a ∈ items, (step a).Yields q) :
    (Compiling.forAll step items : Outcome (List β)).Yields fun found => ∀ b ∈ found, q b := by
  induction items with
  | nil => exact .pure (by simp)
  | cons a items ih =>
    refine bind (each a (by simp)) fun b first => ?_
    refine bind (ih fun c mem => each c (by simp [mem])) fun rest others => .pure ?_
    simpa using ⟨first, others⟩

end Yields

end ScratchPage.Outcome
