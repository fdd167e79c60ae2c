import Mathlib.Data.List.Forall2
import ScratchPage.Compile.Target
import ScratchPage.Proofs.Block.References

/-!
# Two compilations in lockstep

The rules for one block only chain steps, raise findings, fail, and ask for the blocks that the block
holds. So they relate computations of two kinds, in two scopes, whenever the compilers of those blocks
are related: what is shown here once holds of every pair of compilations that take the same steps.

A relation may ask the two results to be equal or let them differ. What the rules do next depends on
a result in one place only, where a slot with a menu holds a fixed choice; `Agreement.choice` keeps
such choices apart from computed ones even where operands may differ.
-/

namespace ScratchPage
set_option autoImplicit false

/-- The errors that the rules for one block raise about that block. -/
def CompileError.isLocal : CompileError → Bool
  | .missingField .. => true
  | .malformedInput .. => true
  | .unknownMathFunction .. => true
  | .unknownKey .. => true
  | .invalidChoice .. => true
  | .unknownBlock .. => false
  | .malformedField .. => false
  | .malformedProject .. => false
  | .duplicateStage .. => false
  | .cyclicChain .. => false

/-- The slot in which a block holds the choice of a menu. -/
def Opcode.menuSlot? : Opcode → Option (String × Menu)
  | .command .goTo => some ("TO", .goTo)
  | .command .glideTo => some ("TO", .glideTo)
  | .command .pointTowards => some ("TOWARDS", .pointTowards)
  | .command .switchCostumeTo => some ("COSTUME", .costume)
  | .command .switchBackdropTo => some ("BACKDROP", .backdrop)
  | .command .createCloneOf => some ("CLONE_OPTION", .cloneOf)
  | .reporter .keyPressed => some ("KEY_OPTION", .key)
  | .reporter .touchingObject => some ("TOUCHINGOBJECTMENU", .touchingObject)
  | _ => none

namespace Compile

/-! ## Recursion over blocks -/

section

variable {scope : Scope} {active : List BlockId} {id : BlockId} {block : Block}

theorem value_of_lost (lost : scope.target.graph.find? id = none) :
    value scope active id = Compiling.fail (.unknownBlock scope.target.name id) := by
  rw [value]
  split
  · rfl
  · simp_all

/-- The equation of `value` for a block that is found. -/
theorem value_of_find? (found : scope.target.graph.find? id = some block) :
    value scope active id =
      if id ∈ active then Compiling.fail (.cyclicChain scope.target.name id)
      else valueOf scope (value scope (id :: active)) block := by
  rw [value]
  split
  · simp_all
  · rename_i found'
    obtain rfl := Option.some.inj (found.symm.trans found')
    rfl

theorem statement_of_lost (lost : scope.target.graph.find? id = none) :
    statement scope active id = Compiling.fail (.unknownBlock scope.target.name id) := by
  rw [statement]
  split
  · rfl
  · simp_all

/-- The equation of `statement` for a block that is found. -/
theorem statement_of_find? (found : scope.target.graph.find? id = some block) :
    statement scope active id =
      if id ∈ active then Compiling.fail (.cyclicChain scope.target.name id)
      else
        statementOf scope (value scope (id :: active))
          (fun start => chainOf scope.target.graph (statement scope (id :: active)) (some start)) block := by
  rw [statement]
  split
  · simp_all
  · rename_i found'
    obtain rfl := Option.some.inj (found.symm.trans found')
    rfl

theorem walk_of_lost {graph : Graph} {met : List BlockId} (lost : graph.find? id = none) :
    graph.walk met id = .error (.unknownBlock graph.target id) := by
  rw [Graph.walk]
  split
  · rfl
  · simp_all

/-- The equation of `walk` for a block that is found. -/
theorem walk_of_find? {graph : Graph} {met : List BlockId} (found : graph.find? id = some block) :
    graph.walk met id =
      if id ∈ met then .error (.cyclicChain graph.target id)
      else
        match block.next with
        | none => .ok [block]
        | some next => (graph.walk (id :: met) next).map (block :: ·) := by
  rw [Graph.walk]
  split
  · simp_all
  · rename_i found'
    obtain rfl := Option.some.inj (found.symm.trans found')
    rfl

end

/-! ## Related computations -/

/-- The pairs of results that a relation between computations lets through; where results are exact
they are equal. -/
structure Agreement (exact : Prop) (α : Type) where
  holds : α → α → Prop
  refl : ∀ a, holds a a
  eq : exact → ∀ {a b}, holds a b → a = b

namespace Agreement

variable {exact : Prop} {α : Type}

/-- Equal results. -/
def same : Agreement exact α where
  holds := Eq
  refl _ := rfl
  eq _ := id

/-- Results that are equal where they are exact, and arbitrary otherwise. -/
def loose : Agreement exact α where
  holds a b := exact → a = b
  refl _ _ := rfl
  eq sure _ _ h := h sure

/-- Choices of the same kind, with the same name if they are fixed. -/
inductive OfChoice (exact : Prop) : Choice → Choice → Prop
  | fixed (name : String) : OfChoice exact (.fixed name) (.fixed name)
  | computed {a b : Operand} (equal : exact → a = b) : OfChoice exact (.computed a) (.computed b)

def choice : Agreement exact Choice where
  holds := OfChoice exact
  refl c := by
    cases c with
    | fixed name => exact .fixed name
    | computed operand => exact .computed fun _ => rfl
  eq sure _ _ h := by
    cases h with
    | fixed name => rfl
    | computed equal => rw [equal sure]

end Agreement

/-- A relation between computations of two kinds that is kept by steps in sequence and holds of the
failures with the allowed errors. -/
structure Lockstep {m n : Type → Type} [Compiling m] [Compiling n] (exact : Prop)
    (related : {α : Type} → Agreement exact α → m α → n α → Prop)
    (allowed : CompileError → Prop) : Prop where
  pure : ∀ {α : Type} {R : Agreement exact α} {a b : α}, R.holds a b →
    related R (Pure.pure a) (Pure.pure b)
  bind : ∀ {α β : Type} {R : Agreement exact α} {S : Agreement exact β} {x : m α} {y : n α}
    {f : α → m β} {g : α → n β}, related R x y → (∀ a b, R.holds a b → related S (f a) (g b)) →
    related S (x >>= f) (y >>= g)
  report : ∀ {R : Agreement exact Unit} (d : Diagnostic),
    related R (Compiling.report d) (Compiling.report d)
  fail : ∀ {α : Type} {R : Agreement exact α} {e : CompileError}, allowed e →
    related R (Compiling.fail e) (Compiling.fail e)
  isLocal : ∀ {e : CompileError}, e.isLocal = true → allowed e

/-- Two look-ups end alike: with results that are related or with the same allowed error. -/
inductive SameEnd (allowed : CompileError → Prop) {α : Type} (R : α → α → Prop) :
    Except CompileError α → Except CompileError α → Prop
  | ok {a b : α} (related : R a b) : SameEnd allowed R (.ok a) (.ok b)
  | error {e : CompileError} (permitted : allowed e) : SameEnd allowed R (.error e) (.error e)

theorem SameEnd.refl {allowed : CompileError → Prop} {α : Type} {R : α → α → Prop}
    {result : Except CompileError α} (errors : ∀ e, result = .error e → allowed e)
    (results : ∀ a, result = .ok a → R a a) : SameEnd allowed R result result := by
  cases result with
  | ok a => exact .ok (results a rfl)
  | error e => exact .error (errors e rfl)

theorem SameEnd.map {allowed : CompileError → Prop} {α β : Type} {R : α → α → Prop} {S : β → β → Prop}
    {f g : α → β} {x y : Except CompileError α} (ends : SameEnd allowed R x y)
    (next : ∀ a b, R a b → S (f a) (g b)) : SameEnd allowed S (x.map f) (y.map g) := by
  cases ends with
  | ok related => exact .ok (next _ _ related)
  | error permitted => exact .error permitted

theorem SameEnd.imp {allowed : CompileError → Prop} {α : Type} {R S : α → α → Prop}
    {x y : Except CompileError α} (ends : SameEnd allowed R x y) (weaker : ∀ a b, R a b → S a b) :
    SameEnd allowed S x y := by
  cases ends with
  | ok related => exact .ok (weaker _ _ related)
  | error permitted => exact .error permitted

/-- Two scopes that differ at most in the blocks of their targets. -/
structure SameSurroundings (s₁ s₂ : Scope) : Prop where
  name : s₁.target.name = s₂.target.name
  procedures : s₁.procedures = s₂.procedures
  signature : s₁.signature = s₂.signature

theorem SameSurroundings.refl (scope : Scope) : SameSurroundings scope scope := ⟨rfl, rfl, rfl⟩

namespace Lockstep

variable {m n : Type → Type} [Compiling m] [Compiling n] {exact : Prop}
variable {related : {α : Type} → Agreement exact α → m α → n α → Prop} {allowed : CompileError → Prop}
variable (lockstep : Lockstep (m := m) (n := n) exact related allowed)

include lockstep

section

variable {α β γ δ : Type} {R : Agreement exact β}

/-- A step with equal results, then any step. -/
theorem andThen {x : m α} {y : n α} {f : α → m β} {g : α → n β} (first : related .same x y)
    (next : ∀ a, related R (f a) (g a)) : related R (x >>= f) (y >>= g) := by
  refine lockstep.bind first fun a b equal => ?_
  cases equal
  exact next a

theorem give (b : β) : related R (Pure.pure b) (Pure.pure b) := lockstep.pure (R.refl b)

/-- A step whose result is put into a larger one. -/
theorem map {f : α → β} {x : m α} {y : n α} (first : related .loose x y) :
    related .loose (x >>= fun a => Pure.pure (f a)) (y >>= fun a => Pure.pure (f a)) :=
  lockstep.bind first fun _ _ equal => lockstep.pure fun sure => by rw [equal sure]

theorem map₂ {f : α → β → γ} {x : m α} {y : n α} {x' : m β} {y' : n β}
    (first : related .loose x y) (second : related .loose x' y') :
    related .loose (x >>= fun a => x' >>= fun b => Pure.pure (f a b))
      (y >>= fun a => y' >>= fun b => Pure.pure (f a b)) :=
  lockstep.bind first fun _ _ equal => lockstep.bind second fun _ _ equal' =>
    lockstep.pure fun sure => by rw [equal sure, equal' sure]

theorem map₃ {f : α → β → γ → δ} {x : m α} {y : n α} {x' : m β} {y' : n β} {x'' : m γ} {y'' : n γ}
    (first : related .loose x y) (second : related .loose x' y') (third : related .loose x'' y'') :
    related .loose (x >>= fun a => x' >>= fun b => x'' >>= fun c => Pure.pure (f a b c))
      (y >>= fun a => y' >>= fun b => y'' >>= fun c => Pure.pure (f a b c)) :=
  lockstep.bind first fun _ _ equal => lockstep.bind second fun _ _ equal' =>
    lockstep.bind third fun _ _ equal'' =>
      lockstep.pure fun sure => by rw [equal sure, equal' sure, equal'' sure]

omit lockstep [Compiling m] [Compiling n] in
theorem cond {c : Prop} [Decidable c] {x y : m β} {x' y' : n β} (yes : related R x x')
    (no : related R y y') : related R (if c then x else y) (if c then x' else y') := by
  split
  · exact yes
  · exact no

/-- A finding and then a result. -/
theorem noting (f : Finding) (b : β) :
    related R (Compile.note f >>= fun _ => Pure.pure b) (Compile.note f >>= fun _ => Pure.pure b) :=
  lockstep.andThen (lockstep.report _) fun _ => lockstep.give b

theorem requireField (block : Block) (slot : String) {R : Agreement exact Field} :
    related R (Compile.requireField block slot) (Compile.requireField block slot) := by
  unfold Compile.requireField
  cases block.field? slot with
  | some field => exact lockstep.give field
  | none => exact lockstep.fail (lockstep.isLocal rfl)

/-- A field and then a result made from it. -/
theorem fieldThen (block : Block) (slot : String) (f : Field → β) :
    related R (Compile.requireField block slot >>= fun field => Pure.pure (f field))
      (Compile.requireField block slot >>= fun field => Pure.pure (f field)) :=
  lockstep.andThen (lockstep.requireField block slot) fun _ => lockstep.give _

theorem attempt {x y : Except CompileError β} (ends : SameEnd allowed R.holds x y) :
    related R (Compiling.attempt x) (Compiling.attempt y) := by
  cases ends with
  | ok agrees => exact lockstep.pure agrees
  | error permitted => exact lockstep.fail permitted

theorem forAll {f : α → m β} {g : α → n β} {items items' : List α}
    (each : List.Forall₂ (fun a b => related .loose (f a) (g b)) items items') :
    related .loose (Compiling.forAll f items) (Compiling.forAll g items') := by
  induction each with
  | nil => exact lockstep.give []
  | cons first _ rest => exact lockstep.map₂ first rest

end

theorem literal (owner : Block) (slot : String) (kind : LiteralKind) (raw : String)
    (coercion : Coercion) {R : Agreement exact Operand} :
    related R (Compile.literal owner slot kind raw coercion)
      (Compile.literal owner slot kind raw coercion) := by
  cases coercion with
  | any => exact lockstep.give _
  | numeric => exact cond (lockstep.give _) (lockstep.noting _ _)

theorem listKey (owner : Block) {R : Agreement exact String} :
    related R (Compile.listKey owner) (Compile.listKey owner) := lockstep.fieldThen owner _ _

theorem variableKey (owner : Block) {R : Agreement exact String} :
    related R (Compile.variableKey owner) (Compile.variableKey owner) := lockstep.fieldThen owner _ _

theorem numberOrName (owner : Block) (wearer : Wearer) {R : Agreement exact Operand} :
    related R (Compile.numberOrName owner wearer) (Compile.numberOrName owner wearer) := by
  refine lockstep.andThen (lockstep.requireField owner _) fun field => ?_
  exact cond (lockstep.give _) (cond (lockstep.give _) (lockstep.fail (lockstep.isLocal rfl)))

theorem effect (owner : Block) {R : Agreement exact Effect} :
    related R (Compile.effect owner) (Compile.effect owner) := by
  refine lockstep.andThen (lockstep.requireField owner _) fun field => ?_
  simp only
  cases Effect.ofName? field.value with
  | some e => exact lockstep.give e
  | none => exact lockstep.fail (lockstep.isLocal rfl)

theorem layer (owner : Block) {R : Agreement exact Layer} :
    related R (Compile.layer owner) (Compile.layer owner) := by
  refine lockstep.andThen (lockstep.requireField owner _) fun field => ?_
  exact cond (lockstep.give _) (cond (lockstep.give _) (lockstep.fail (lockstep.isLocal rfl)))

section

variable {s₁ s₂ : Scope} (alike : SameSurroundings s₁ s₂) {owner : Block}

include alike in
/-- Whether a name is an argument depends on the signature, which the scopes share. -/
theorem argument (neutral : Operand) {R : Agreement exact Operand} :
    related R (Compile.argument s₁ owner neutral) (Compile.argument s₂ owner neutral) := by
  have same : s₁.hasArgument = s₂.hasArgument := by
    funext name
    rw [Scope.hasArgument, Scope.hasArgument, alike.signature]
  refine lockstep.andThen (lockstep.requireField owner _) fun field => ?_
  simp only [same]
  exact cond (lockstep.give _) (lockstep.noting _ _)

/-! ## Values -/

variable {sub₁ : BlockId → m Operand} {sub₂ : BlockId → n Operand}
variable (subs : ∀ id, owner.Holds id → related .loose (sub₁ id) (sub₂ id))

section

include subs

/-- An input leads to a literal, to a variable or to a block that the sub-computations agree on. -/
theorem resolve {slot : String} {input : Input} (found : owner.input? slot = some input)
    (coercion : Coercion) :
    related .loose (Compile.resolve sub₁ owner slot input.payload coercion)
      (Compile.resolve sub₂ owner slot input.payload coercion) := by
  cases held : input.payload with
  | empty => exact lockstep.noting _ _
  | literal kind raw => exact lockstep.literal owner slot kind raw coercion
  | «variable» name id => exact lockstep.give _
  | list name id => exact lockstep.give _
  | block id => exact subs id (Block.holds_of_input? found held)

theorem input (slot : String) (coercion : Coercion) :
    related .loose (Compile.input sub₁ owner slot coercion)
      (Compile.input sub₂ owner slot coercion) := by
  unfold Compile.input
  cases found : owner.input? slot with
  | some input => exact lockstep.resolve subs found coercion
  | none => exact lockstep.noting _ _

theorem binary (op : Operator) (left right : String) (coercion : Coercion) :
    related .loose (Compile.binary sub₁ owner op left right coercion)
      (Compile.binary sub₂ owner op left right coercion) :=
  lockstep.map₂ (lockstep.input subs left coercion) (lockstep.input subs right coercion)

theorem random : related .loose (Compile.random sub₁ owner) (Compile.random sub₂ owner) := by
  unfold Compile.random
  split
  · exact cond (lockstep.give _) (lockstep.give _)
  · exact lockstep.map₂ (lockstep.input subs _ _) (lockstep.input subs _ _)

theorem mathFunction :
    related .loose (Compile.mathFunction sub₁ owner) (Compile.mathFunction sub₂ owner) := by
  refine lockstep.andThen (lockstep.requireField owner _) fun field => ?_
  refine lockstep.bind (lockstep.input subs _ _) fun x y equal => ?_
  cases MathFunction.ofName? field.value with
  | some f => exact lockstep.pure fun sure => by rw [equal sure]
  | none => exact lockstep.fail (lockstep.isLocal rfl)

/-- The choice in a slot, where both scopes find the same block in it. -/
theorem choice {slot : String} (lookup : ∀ id shadow, owner.input? slot = some ⟨.block id, shadow⟩ →
      SameEnd allowed Eq (s₁.target.graph.get id) (s₂.target.graph.get id)) (menu : Menu) :
    related .choice (Compile.choice s₁ sub₁ owner slot menu)
      (Compile.choice s₂ sub₂ owner slot menu) := by
  have computed : ∀ {x : m Operand} {y : n Operand}, related .loose x y →
      related .choice (x >>= fun a => Pure.pure (.computed a)) (y >>= fun b => Pure.pure (.computed b)) :=
    fun first => lockstep.bind first fun _ _ equal => lockstep.pure (.computed equal)
  unfold Compile.choice
  cases found : owner.input? slot with
  | none => exact lockstep.fail (lockstep.isLocal rfl)
  | some input =>
    obtain ⟨payload, shadow⟩ := input
    cases payload with
    | block id =>
      have held : owner.Holds id := Block.holds_of_input? found rfl
      refine lockstep.andThen (lockstep.attempt (lookup id shadow found)) fun block => ?_
      split
      · exact lockstep.fieldThen block _ _
      · split
        · exact computed (subs id held)
        · exact computed (subs id held)
        · exact lockstep.fail (lockstep.isLocal rfl)
    | empty | literal | «variable» | list => exact computed (lockstep.resolve subs found .any)

end

section

variable {slot : String} {menu : Menu}

theorem keyPressed {R : Agreement exact Operand}
    (chosen : related .choice (Compile.choice s₁ sub₁ owner "KEY_OPTION" .key)
      (Compile.choice s₂ sub₂ owner "KEY_OPTION" .key)) :
    related R (Compile.keyPressed s₁ sub₁ owner) (Compile.keyPressed s₂ sub₂ owner) := by
  refine lockstep.bind chosen fun a b agrees => ?_
  cases agrees with
  | computed _ => exact lockstep.noting _ _
  | fixed name =>
    refine cond (lockstep.give _) ?_
    cases browserKey? name with
    | some key => exact lockstep.give _
    | none => exact lockstep.fail (lockstep.isLocal rfl)

theorem touching {R : Agreement exact Operand}
    (chosen : related .choice (Compile.choice s₁ sub₁ owner "TOUCHINGOBJECTMENU" .touchingObject)
      (Compile.choice s₂ sub₂ owner "TOUCHINGOBJECTMENU" .touchingObject)) :
    related R (Compile.touching s₁ sub₁ owner) (Compile.touching s₂ sub₂ owner) := by
  refine lockstep.bind chosen fun a b agrees => ?_
  cases agrees with
  | computed _ => exact lockstep.noting _ _
  | fixed object => exact cond (lockstep.give _) (lockstep.noting _ _)

theorem destination {R : Agreement exact (Option Destination)}
    (chosen : related .choice (Compile.choice s₁ sub₁ owner "TO" menu)
      (Compile.choice s₂ sub₂ owner "TO" menu)) :
    related R (Compile.destination s₁ sub₁ owner menu) (Compile.destination s₂ sub₂ owner menu) := by
  refine lockstep.bind chosen fun a b agrees => ?_
  cases agrees with
  | computed _ => exact lockstep.noting _ _
  | fixed place => exact cond (lockstep.give _) (cond (lockstep.give _) (lockstep.noting _ _))

theorem appearance
    (chosen : related .choice (Compile.choice s₁ sub₁ owner slot menu)
      (Compile.choice s₂ sub₂ owner slot menu)) :
    related .loose (Compile.appearance s₁ sub₁ owner slot menu)
      (Compile.appearance s₂ sub₂ owner slot menu) := by
  refine lockstep.bind chosen fun a b agrees => ?_
  cases agrees with
  | computed equal => exact lockstep.pure equal
  | fixed name => exact lockstep.give _

theorem pointTowards {R : Agreement exact Action}
    (chosen : related .choice (Compile.choice s₁ sub₁ owner "TOWARDS" .pointTowards)
      (Compile.choice s₂ sub₂ owner "TOWARDS" .pointTowards)) :
    related R (Compile.pointTowards s₁ sub₁ owner) (Compile.pointTowards s₂ sub₂ owner) := by
  refine lockstep.bind chosen fun a b agrees => ?_
  cases agrees with
  | computed _ => exact lockstep.noting _ _
  | fixed towards => exact cond (lockstep.give _) (lockstep.noting _ _)

theorem cloneOf {R : Agreement exact Action}
    (chosen : related .choice (Compile.choice s₁ sub₁ owner "CLONE_OPTION" .cloneOf)
      (Compile.choice s₂ sub₂ owner "CLONE_OPTION" .cloneOf)) :
    related R (Compile.cloneOf s₁ sub₁ owner) (Compile.cloneOf s₂ sub₂ owner) := by
  refine lockstep.bind chosen fun a b agrees => ?_
  cases agrees with
  | computed _ => exact lockstep.noting _ _
  | fixed option => exact cond (lockstep.give _) (lockstep.noting _ _)

end

include alike subs

variable (choices : ∀ slot menu, owner.opcode.menuSlot? = some (slot, menu) →
  related .choice (Compile.choice s₁ sub₁ owner slot menu) (Compile.choice s₂ sub₂ owner slot menu))

include choices in
/-- The step for reporters, operator by operator. -/
theorem reporter {op : Reporter} (isOp : owner.opcode = .reporter op) :
    related .loose (Compile.reporter s₁ sub₁ owner op) (Compile.reporter s₂ sub₂ owner op) := by
  rw [isOp] at choices
  cases op with
  | and | or | equals | greater | less | add | subtract | multiply | divide | modulo =>
    exact lockstep.binary subs _ _ _ _
  | not | round | length => exact lockstep.map (lockstep.input subs _ _)
  | join | contains | letterOf =>
    exact lockstep.map₂ (lockstep.input subs _ _) (lockstep.input subs _ _)
  | random => exact lockstep.random subs
  | mathFunction => exact lockstep.mathFunction subs
  | xPosition | yPosition | direction | mouseX | mouseY | mouseDown | size => exact lockstep.give _
  | keyPressed => exact lockstep.keyPressed (choices _ _ rfl)
  | touchingObject => exact lockstep.touching (choices _ _ rfl)
  | costumeNumberName | backdropNumberName => exact lockstep.numberOrName owner _
  | «variable» => exact lockstep.fieldThen owner _ _
  | listContents | lengthOfList => exact lockstep.map (lockstep.listKey owner)
  | itemOfList | itemNumOfList | listContainsItem =>
    exact lockstep.map₂ (lockstep.listKey owner) (lockstep.input subs _ _)
  | argumentStringNumber | argumentBoolean => exact lockstep.argument alike _

include choices in
/-- The rule for a value. -/
theorem valueOf :
    related .loose (Compile.valueOf s₁ sub₁ owner) (Compile.valueOf s₂ sub₂ owner) := by
  unfold Compile.valueOf
  split
  case h_1 op isOp => exact lockstep.reporter alike subs choices isOp
  case h_2 menu isMenu => exact lockstep.fieldThen owner _ _
  case h_3 => exact lockstep.noting _ _

/-! ## Statements -/

/-- The arguments of a call agree one by one. -/
theorem call : related .loose (Compile.call s₁ sub₁ owner) (Compile.call s₂ sub₂ owner) := by
  unfold Compile.call
  cases owner.signature with
  | none => exact lockstep.fail (lockstep.isLocal rfl)
  | some signature =>
    simp only [alike.procedures, alike.name]
    refine cond ?_ (lockstep.noting _ _)
    exact lockstep.map (lockstep.forAll (List.forall₂_same.2 fun slot _ => lockstep.input subs slot .any))

variable {stack₁ : BlockId → m (List Statement)} {stack₂ : BlockId → n (List Statement)}
variable (bodies : ∀ id, owner.Holds id → related .loose (stack₁ id) (stack₂ id))

omit alike subs in
include bodies in
/-- The chains of a slot agree if the sub-computations for chains do. -/
theorem substack (slot : String) :
    related .loose (Compile.substack stack₁ owner slot) (Compile.substack stack₂ owner slot) := by
  unfold Compile.substack
  cases found : owner.input? slot with
  | none => exact lockstep.give _
  | some input =>
    obtain ⟨payload, shadow⟩ := input
    cases payload with
    | empty => exact lockstep.give _
    | block id => exact bodies id (Block.holds_of_input? found rfl)
    | literal | «variable» | list => exact lockstep.fail (lockstep.isLocal rfl)

include choices bodies in
/-- The step for commands, operator by operator. -/
theorem command {op : Command} (isOp : owner.opcode = .command op) :
    related .loose (Compile.command s₁ sub₁ stack₁ owner op)
      (Compile.command s₂ sub₂ stack₂ owner op) := by
  rw [isOp] at choices
  cases op with
  | nextCostume | nextBackdrop | clearGraphicEffects | showSprite | hideSprite | deleteThisClone =>
    exact lockstep.give _
  | moveSteps | changeXBy | changeYBy | setX | setY | turnLeft | turnRight | pointInDirection
  | changeSizeBy | setSizeTo | wait | waitUntil | broadcast | broadcastAndWait =>
    exact lockstep.map (lockstep.input subs _ _)
  | goToXY | sayForSeconds =>
    exact lockstep.map₂ (lockstep.input subs _ _) (lockstep.input subs _ _)
  | glideToXY =>
    exact lockstep.map₃ (lockstep.input subs _ _) (lockstep.input subs _ _) (lockstep.input subs _ _)
  | goTo =>
    refine lockstep.andThen (lockstep.destination (choices _ _ rfl)) fun place => ?_
    cases place <;> exact lockstep.give _
  | glideTo =>
    refine lockstep.bind (lockstep.input subs _ _) fun seconds seconds' equal => ?_
    refine lockstep.andThen (lockstep.destination (choices _ _ rfl)) fun place => ?_
    cases place with
    | some place => exact lockstep.pure fun sure => by rw [equal sure]
    | none => exact lockstep.give _
  | pointTowards => exact lockstep.map (lockstep.pointTowards (choices _ _ rfl))
  | createCloneOf => exact lockstep.map (lockstep.cloneOf (choices _ _ rfl))
  | callProcedure => exact lockstep.map (lockstep.call alike subs)
  | setRotationStyle => exact lockstep.fieldThen owner _ _
  | switchCostumeTo | switchBackdropTo =>
    exact lockstep.map (lockstep.appearance (choices _ _ rfl))
  | changeEffectBy | setEffectTo =>
    exact lockstep.map₂ (lockstep.input subs _ _) (lockstep.effect owner)
  | goToFrontBack => exact lockstep.map (lockstep.layer owner)
  | forever => exact lockstep.map (lockstep.substack bodies _)
  | repeatTimes | repeatUntil | branch =>
    exact lockstep.map₂ (lockstep.input subs _ _) (lockstep.substack bodies _)
  | branchElse =>
    exact lockstep.map₃ (lockstep.input subs _ _) (lockstep.substack bodies _)
      (lockstep.substack bodies _)
  | setVariableTo | changeVariableBy =>
    exact lockstep.map₂ (lockstep.variableKey owner) (lockstep.input subs _ _)
  | addToList | deleteOfList =>
    exact lockstep.map₂ (lockstep.listKey owner) (lockstep.input subs _ _)
  | deleteAllOfList => exact lockstep.map (lockstep.listKey owner)
  | insertAtList | replaceItemOfList =>
    exact lockstep.map₃ (lockstep.listKey owner) (lockstep.input subs _ _) (lockstep.input subs _ _)

include choices bodies in
/-- The rule for a statement. -/
theorem statementOf :
    related .loose (Compile.statementOf s₁ sub₁ stack₁ owner)
      (Compile.statementOf s₂ sub₂ stack₂ owner) := by
  unfold Compile.statementOf
  split
  case h_1 op isOp => exact lockstep.command alike subs choices bodies isOp
  case h_2 => exact lockstep.noting _ _

end

/-- The rule for a chain. -/
theorem chainOf {graph₁ graph₂ : Graph} {start : Option BlockId} {one₁ : BlockId → m Statement}
    {one₂ : BlockId → n Statement}
    (chains : SameEnd allowed
      (List.Forall₂ fun a b => related .loose (one₁ (Block.id a)) (one₂ (Block.id b)))
      (graph₁.chain start) (graph₂.chain start)) :
    related .loose (Compile.chainOf graph₁ one₁ start) (Compile.chainOf graph₂ one₂ start) := by
  unfold Compile.chainOf
  generalize graph₁.chain start = found₁ at chains ⊢
  generalize graph₂.chain start = found₂ at chains ⊢
  cases chains with
  | ok ones => exact lockstep.forAll ones
  | error permitted => exact lockstep.fail permitted

/-! ## Scripts -/

section

variable {target₁ target₂ : Target} {body₁ : Scope → Option BlockId → m (List Statement)}
variable {body₂ : Scope → Option BlockId → n (List Statement)} {block : Block}

variable (bodies : ∀ s₁ s₂, SameSurroundings s₁ s₂ → s₁.target = target₁ → s₂.target = target₂ →
  related .loose (body₁ s₁ block.next) (body₂ s₂ block.next))
variable (signatures : SameEnd allowed Eq (definedSignature target₁.graph block)
  (definedSignature target₂.graph block))
variable {s₁ s₂ : Scope} (alike : SameSurroundings s₁ s₂)
variable (is₁ : s₁.target = target₁) (is₂ : s₂.target = target₂)

include alike

theorem unsupported {R : Agreement exact (Option Script)} :
    related R (Compile.unsupported s₁ block) (Compile.unsupported s₂ block) := by
  unfold Compile.unsupported
  rw [alike.name]
  exact lockstep.noting _ _

include bodies signatures is₁ is₂

/-- Definitions agree if their bodies do. -/
theorem procedure :
    related .loose (Compile.procedure body₁ s₁ block) (Compile.procedure body₂ s₂ block) := by
  subst is₁ is₂
  refine lockstep.andThen (lockstep.attempt signatures) fun signature => ?_
  have inner : SameSurroundings { s₁ with signature := some signature }
      { s₂ with signature := some signature } := ⟨alike.name, alike.procedures, rfl⟩
  have rest := lockstep.map (f := fun statements => some (Script.procedure signature statements))
    (bodies _ _ inner rfl rfl)
  exact cond (lockstep.andThen (lockstep.report _) fun _ => rest) rest

/-- Hats agree if their bodies do. -/
theorem hat (op : Hat) :
    related .loose (Compile.hat body₁ s₁ block op) (Compile.hat body₂ s₂ block op) := by
  cases op with
  | whenFlagClicked | startAsClone => exact lockstep.map (bodies s₁ s₂ alike is₁ is₂)
  | whenBroadcastReceived =>
    exact lockstep.map₂ (lockstep.requireField block _) (bodies s₁ s₂ alike is₁ is₂)
  | defineProcedure => exact lockstep.procedure bodies signatures alike is₁ is₂
  | whenThisSpriteClicked | whenStageClicked | whenKeyPressed | whenBackdropSwitchesTo
  | whenGreaterThan => exact lockstep.unsupported alike

theorem script : related .loose (Compile.script body₁ s₁ block) (Compile.script body₂ s₂ block) := by
  unfold Compile.script
  split
  case h_1 op isHat => exact lockstep.hat bodies signatures alike is₁ is₂ op
  case h_2 => exact lockstep.noting _ _

end

/-- The rule for the scripts of a target. -/
theorem scriptsOf {target₁ target₂ : Target} {body₁ : Scope → Option BlockId → m (List Statement)}
    {body₂ : Scope → Option BlockId → n (List Statement)} (name : target₁.name = target₂.name)
    (procedures : SameEnd allowed Eq (definedProcedures target₁.graph target₁.graph.topLevel)
      (definedProcedures target₂.graph target₂.graph.topLevel))
    (each : ∀ s₁ s₂, SameSurroundings s₁ s₂ → s₁.target = target₁ → s₂.target = target₂ →
      List.Forall₂ (fun a b => related .loose (Compile.script body₁ s₁ a) (Compile.script body₂ s₂ b))
        target₁.graph.topLevel target₂.graph.topLevel) :
    related .loose (Compile.scriptsOf body₁ target₁) (Compile.scriptsOf body₂ target₂) := by
  refine lockstep.andThen (lockstep.attempt procedures) fun names => ?_
  exact lockstep.map (lockstep.forAll (each _ _ ⟨name, rfl, rfl⟩ rfl rfl))

end Lockstep

end Compile

/-- Related targets stay related in the order of the code. -/
theorem Project.forall₂_inCodeOrder {related : Target → Target → Prop} {p q : Project}
    (targets : List.Forall₂ related p.targets q.targets)
    (stage : ∀ a b, related a b → a.isStage = b.isStage) :
    List.Forall₂ related p.inCodeOrder q.inCodeOrder := by
  refine List.rel_append (List.rel_filter (fun a b same => ?_) targets)
    (List.rel_filter (fun a b same => ?_) targets)
  · simp only [stage a b same]
  · simp only [stage a b same]

end ScratchPage
