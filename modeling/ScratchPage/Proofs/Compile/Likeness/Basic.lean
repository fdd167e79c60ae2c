import Mathlib.Data.List.Forall2
import ScratchPage.Compile.Target
import ScratchPage.Proofs.Block.Canvas
import ScratchPage.Proofs.Compile.Lockstep
import ScratchPage.Proofs.Compile.Outcome

/-!
# Alike blocks compile alike

The compiler asks a block for its opcode, its slots and its fields. It never looks into a text that
ends up between quotation marks, and it uses the names of blocks only to find them. So two graphs whose
blocks agree in everything else compile to code that looks the same, or fail with errors of one kind.
What may differ is given by a likeness: which fragments of code look the same, and which names
correspond to each other.
-/

namespace ScratchPage
set_option autoImplicit false

/-- The kind of an error, without what the error says about the project. -/
inductive ErrorKind where
  | unknownBlock
  | malformedInput
  | malformedField
  | missingField
  | malformedProject
  | duplicateStage
  | cyclicChain
  | unknownMathFunction
  | unknownKey
  | invalidChoice
deriving DecidableEq, Repr

def CompileError.kind : CompileError → ErrorKind
  | .unknownBlock .. => .unknownBlock
  | .malformedInput .. => .malformedInput
  | .malformedField .. => .malformedField
  | .missingField .. => .missingField
  | .malformedProject .. => .malformedProject
  | .duplicateStage .. => .duplicateStage
  | .cyclicChain .. => .cyclicChain
  | .unknownMathFunction .. => .unknownMathFunction
  | .unknownKey .. => .unknownKey
  | .invalidChoice .. => .invalidChoice

/-! ## Outcomes -/

namespace Outcome

variable {α β γ δ : Type}

/-- Two results that are related, or two errors of one kind. -/
inductive SameResult (related : α → β → Prop) : Except CompileError α → Except CompileError β → Prop
  | ok {a : α} {b : β} : related a b → SameResult related (.ok a) (.ok b)
  | error {e f : CompileError} : e.kind = f.kind → SameResult related (.error e) (.error f)

theorem SameResult.map {related : α → β → Prop} {next : γ → δ → Prop} {x : Except CompileError α}
    {y : Except CompileError β} {f : α → γ} {g : β → δ} (same : SameResult related x y)
    (each : ∀ {a b}, related a b → next (f a) (g b)) : SameResult next (x.map f) (y.map g) := by
  cases same with
  | ok h => exact .ok (each h)
  | error h => exact .error h

/-- Outcomes with the same result, up to what is related, and with findings of the same severities. -/
structure Alike (related : α → β → Prop) (x : Outcome α) (y : Outcome β) : Prop where
  result : SameResult related x.result y.result
  severities : x.raised.map Diagnostic.severity = y.raised.map Diagnostic.severity

namespace Alike

variable {related : α → β → Prop} {next : γ → δ → Prop}

theorem pure {a : α} {b : β} (h : related a b) : Alike related (Pure.pure a) (Pure.pure b) :=
  ⟨.ok h, rfl⟩

theorem fail {e f : CompileError} (h : e.kind = f.kind) :
    Alike related (Compiling.fail e : Outcome α) (Compiling.fail f : Outcome β) :=
  ⟨.error h, rfl⟩

/-- Steps in sequence are alike if each of them is. -/
theorem bind {x : Outcome α} {y : Outcome β} {f : α → Outcome γ} {g : β → Outcome δ}
    (first : Alike related x y) (others : ∀ a b, related a b → Alike next (f a) (g b)) :
    Alike next (x >>= f) (y >>= g) := by
  obtain ⟨result, severities⟩ := first
  change Alike next (x.andThen f) (y.andThen g)
  unfold andThen
  cases hx : x.result with
  | ok a =>
    cases hy : y.result with
    | ok b =>
      rw [hx, hy] at result
      cases result with
      | ok h =>
        have then_ := others a b h
        exact ⟨then_.result, by simp [severities, then_.severities]⟩
    | error f =>
      rw [hx, hy] at result
      cases result
  | error e =>
    cases hy : y.result with
    | ok b =>
      rw [hx, hy] at result
      cases result
    | error f =>
      rw [hx, hy] at result
      cases result with
      | error h => exact ⟨.error h, severities⟩

/-- Findings of one severity before alike steps. -/
theorem noted {f g : Finding} {x : Outcome γ} {y : Outcome δ} (severity : f.severity = g.severity)
    (others : Alike next x y) :
    Alike next (do Compile.note f; x) (do Compile.note g; y) := by
  have first : Alike (fun _ _ => True) (Compile.note f : Outcome Unit) (Compile.note g) :=
    ⟨.ok trivial, by simp [Compile.note, Compiling.report, Finding.diagnostic, severity]⟩
  exact first.bind fun _ _ _ => others

theorem attempt {x : Except CompileError α} {y : Except CompileError β} (h : SameResult related x y) :
    Alike related (Compiling.attempt x : Outcome α) (Compiling.attempt y) := by
  cases h with
  | ok h => exact pure h
  | error h => exact fail h

/-- What is related may be less. -/
theorem mono {x : Outcome α} {y : Outcome β} {weaker : α → β → Prop} (same : Alike related x y)
    (weaken : ∀ {a b}, related a b → weaker a b) : Alike weaker x y := by
  obtain ⟨result, severities⟩ := same
  refine ⟨?_, severities⟩
  generalize x.result = r at result
  generalize y.result = r' at result
  cases result with
  | ok h => exact .ok (weaken h)
  | error h => exact .error h

theorem forAll {f : α → Outcome γ} {g : β → Outcome δ} {as : List α} {bs : List β}
    (items : List.Forall₂ related as bs) (each : ∀ a b, related a b → Alike next (f a) (g b)) :
    Alike (List.Forall₂ next) (Compiling.forAll f as) (Compiling.forAll g bs) := by
  induction items with
  | nil => exact pure .nil
  | cons first _ ih =>
    exact (each _ _ first).bind fun _ _ one => ih.bind fun _ _ others => pure (.cons one others)

end Alike

end Outcome

/-! ## Likenesses -/

/-- What may differ between two graphs. -/
structure Likeness where
  /-- What is seen of a fragment of code. -/
  view : Fragment → Fragment
  /-- A name of one graph corresponds to a name of the other. -/
  names : BlockId → BlockId → Prop
  unique : ∀ {a b c d : BlockId}, names a c → names b d → (a = b ↔ c = d)

/-- A line with another view of its code. -/
def Line.seen (view : Fragment → Fragment) : Line → Line
  | .plain code => .plain (code.map view)
  | .opening code => .opening (code.map view)
  | .closing code => .closing (code.map view)
  | .switching code => .switching (code.map view)
  | .remark text => .remark text

namespace Likeness

open Compile Outcome

variable (like : Likeness)

abbrev SameText (a b : String) : Prop := like.view (.quoted a) = like.view (.quoted b)

abbrev SameOperand (a b : Operand) : Prop := a.code.map like.view = b.code.map like.view

abbrev SameLines (a b : List Line) : Prop := a.map (Line.seen like.view) = b.map (Line.seen like.view)

abbrev SameStatement (a b : Statement) : Prop := like.SameLines a.bodyLines b.bodyLines

abbrev SameChain (a b : List Statement) : Prop :=
  like.SameLines (Statement.chainLines a) (Statement.chainLines b)

abbrev SameScript (a b : Script) : Prop := like.SameLines a.lines b.lines

/-- Contents of a slot that differ in a name, or in a text that stands for no number. -/
inductive SamePayload : Payload → Payload → Prop
  | empty : SamePayload .empty .empty
  | literal {kind : LiteralKind} {a b : String} : like.SameText a b → isNumber kind a = isNumber kind b →
      (isNumber kind a = true → a = b) → SamePayload (.literal kind a) (.literal kind b)
  | block {a b : BlockId} : like.names a b → SamePayload (.block a) (.block b)
  | «variable» (name : String) (id : Option String) : SamePayload (.variable name id) (.variable name id)
  | list (name : String) (id : Option String) : SamePayload (.list name id) (.list name id)

structure SameInput (a b : Input) : Prop where
  payload : like.SamePayload a.payload b.payload
  covers : a.shadow.isSome = b.shadow.isSome

/-- Blocks with the same opcode and signature whose slots and fields hold the same. The message that a
hat waits for is a text of the code, so it may be another one that looks the same. -/
structure SameBlock (a b : Block) : Prop where
  id : like.names a.id b.id
  opcode : a.opcode = b.opcode
  next : Option.Rel like.names a.next b.next
  signature : a.signature = b.signature
  inputs : ∀ slot, Option.Rel like.SameInput (a.input? slot) (b.input? slot)
  fields : a.opcode ≠ .hat .whenBroadcastReceived → ∀ slot, a.field? slot = b.field? slot
  message : a.opcode = .hat .whenBroadcastReceived →
    Option.Rel (fun f g => like.SameText f.value g.value) (a.field? "BROADCAST_OPTION")
      (b.field? "BROADCAST_OPTION")

/-- Corresponding names find alike blocks. -/
structure SameGraph (a b : Graph) : Prop where
  found : ∀ {x y : BlockId}, like.names x y → Option.Rel like.SameBlock (a.find? x) (b.find? y)
  topLevel : List.Forall₂ like.SameBlock a.topLevel b.topLevel

structure SameScope (a b : Scope) : Prop where
  graph : like.SameGraph a.target.graph b.target.graph
  procedures : a.procedures = b.procedures
  signature : a.signature = b.signature

inductive SameChoice : Choice → Choice → Prop
  | fixed (name : String) : SameChoice (.fixed name) (.fixed name)
  | computed {a b : Operand} : like.SameOperand a b → SameChoice (.computed a) (.computed b)

variable {like}

/-- Related options are both absent or both present. -/
theorem rel_cases {α β : Type} {related : α → β → Prop} {u : Option α} {v : Option β}
    (h : Option.Rel related u v) :
    (u = none ∧ v = none) ∨ ∃ a b, u = some a ∧ v = some b ∧ related a b := by
  cases h with
  | none => exact .inl ⟨rfl, rfl⟩
  | some h => exact .inr ⟨_, _, rfl, rfl, h⟩

/-- Names that correspond get blocks that correspond, or fail together. -/
theorem SameGraph.get {a b : Graph} (same : like.SameGraph a b) {x y : BlockId} (names : like.names x y) :
    SameResult like.SameBlock (a.get x) (b.get y) := by
  unfold Graph.get
  obtain ⟨left, right⟩ | ⟨block, block', left, right, alike⟩ := rel_cases (same.found names)
  · rw [left, right]
    exact .error rfl
  · rw [left, right]
    exact .ok alike

/-- The same where the first one is known to be found. -/
theorem SameGraph.find {a b : Graph} (same : like.SameGraph a b) {x y : BlockId} {block : Block}
    (found : a.find? x = some block) (names : like.names x y) :
    ∃ block', b.find? y = some block' ∧ like.SameBlock block block' := by
  obtain ⟨left, -⟩ | ⟨_, block', left, right, alike⟩ := rel_cases (same.found names)
  · rw [found] at left
    cases left
  · obtain rfl : block = _ := Option.some.inj (found.symm.trans left)
    exact ⟨block', right, alike⟩

theorem SameGraph.lost {a b : Graph} (same : like.SameGraph a b) {x y : BlockId}
    (lost : a.find? x = none) (names : like.names x y) : b.find? y = none := by
  obtain ⟨-, right⟩ | ⟨_, _, left, -⟩ := rel_cases (same.found names)
  · exact right
  · rw [lost] at left
    cases left

theorem SameScope.hasArgument {a b : Scope} (same : like.SameScope a b) (name : String) :
    a.hasArgument name = b.hasArgument name := by
  unfold Scope.hasArgument
  rw [same.signature]

/-- Names met on two walks that went alike. -/
theorem mem_iff {met met' : List BlockId} (walks : List.Forall₂ like.names met met') {x y : BlockId}
    (names : like.names x y) : x ∈ met ↔ y ∈ met' := by
  induction walks with
  | nil => simp
  | cons first _ ih => simp only [List.mem_cons, ih, like.unique names first]

/-! ## Alike graphs -/

/-- Slots of the same names with related contents. -/
theorem rel_find? {α β : Type} (related : String → α → β → Prop) {pairs : List (String × α)}
    {pairs' : List (String × β)}
    (same : List.Forall₂ (fun s t => s.1 = t.1 ∧ related s.1 s.2 t.2) pairs pairs') (key : String) :
    Option.Rel (related key) (Keyed.find? pairs key) (Keyed.find? pairs' key) := by
  unfold Keyed.find?
  induction same with
  | nil => exact .none
  | @cons s t _ _ first _ ih =>
    obtain ⟨slot, content⟩ := s
    obtain ⟨_, content'⟩ := t
    obtain ⟨rfl, held⟩ := first
    rw [List.find?_cons, List.find?_cons]
    cases here : slot == key with
    | true =>
      obtain rfl : slot = key := by simpa using here
      exact .some held
    | false => exact ih

/-- Graphs whose blocks correspond in order are alike. -/
theorem SameGraph.of_blocks {a b : Graph} (blocks : List.Forall₂ like.SameBlock a.blocks b.blocks)
    (topLevel : List.Forall₂ like.SameBlock a.topLevel b.topLevel) : like.SameGraph a b where
  topLevel := topLevel
  found := by
    intro x y names
    unfold Graph.find?
    generalize a.blocks = left at blocks ⊢
    generalize b.blocks = right at blocks ⊢
    induction blocks with
    | nil => exact .none
    | @cons c d _ _ first _ ih =>
      have same : (c.id == x) = (d.id == y) := by
        rw [Bool.eq_iff_iff, beq_iff_eq, beq_iff_eq]
        exact like.unique first.id names
      rw [List.find?_cons, List.find?_cons, same]
      cases d.id == y with
      | true => exact .some first
      | false => exact ih

end Likeness

end ScratchPage
