import ScratchPage.Proofs.Compile.Likeness.Basic
import ScratchPage.Proofs.Compile.Meaning
import ScratchPage.Proofs.Compile.Tracked

/-!
# Numbers in numeric slots

A slot that needs a number turns literals into number literals and readings of variables and lists into
`parseFloat` calls. A block in the slot keeps its own code: no block is asked for a number. So, where no
error is raised, the value of such a slot is a number, a truth value or null on every page, unless the slot
holds a block that may report a text (`numericSlot_plain_or_holdsText`). Which blocks these are is said on
blocks, without the compiler.
-/

namespace ScratchPage
set_option autoImplicit false

/-! ## Steps without errors -/

namespace Outcome

variable {α β : Type}

/-- No finding of a step is an error. -/
def Quiet (x : Outcome α) : Prop := ∀ d ∈ x.raised, d.severity ≠ .error

/-- What a step gives when none of its findings is an error has a property. -/
def Gives (x : Outcome α) (p : α → Prop) : Prop := ∀ a, x.result = .ok a → x.Quiet → p a

namespace Gives

variable {p : α → Prop} {q : β → Prop}

theorem pure {a : α} (h : p a) : (Pure.pure a : Outcome α).Gives p := by
  intro b done _
  cases done
  exact h

theorem fail {e : CompileError} : (Compiling.fail e : Outcome α).Gives p := by
  intro a done
  cases done

theorem bind {x : Outcome α} {f : α → Outcome β} (first : x.Gives p) (others : ∀ a, p a → (f a).Gives q) :
    (x >>= f).Gives q := by
  intro b done quiet
  obtain ⟨a, found, last⟩ := bind_eq_ok.1 done
  rw [Quiet, bind_raised found] at quiet
  have holds := first a found fun d mem => quiet d (List.mem_append_left _ mem)
  exact others a holds b last fun d mem => quiet d (List.mem_append_right _ mem)

theorem mono {x : Outcome α} {weaker : α → Prop} (gives : x.Gives p) (weaken : ∀ a, p a → weaker a) :
    x.Gives weaker :=
  fun a done quiet => weaken a (gives a done quiet)

/-- A step of which nothing is known. -/
theorem after {x : Outcome α} {f : α → Outcome β} (others : ∀ a, (f a).Gives q) : (x >>= f).Gives q :=
  bind (p := fun _ => True) (fun _ _ _ => trivial) fun a _ => others a

/-- After an error nothing is left to show. -/
theorem refused {f : Finding} {x : Outcome β} (error : f.severity = .error) :
    (do Compile.note f; x : Outcome β).Gives q := by
  intro b _ quiet
  rw [Quiet, bind_raised rfl] at quiet
  exact absurd error (quiet f.diagnostic (by simp [Compile.note, Compiling.report]))

end Gives

end Outcome

/-! ## Blocks that report texts -/

/-- The content is a literal or a direct reading, which may be a text where any value will do. -/
def Payload.isDirect : Payload → Bool
  | .literal .. => true
  | .variable .. => true
  | .list .. => true
  | .empty => false
  | .block _ => false

namespace Compile

open Outcome

/-- Reporters whose value can be a text whatever their slots hold. The size of a sprite is what the blocks
that set and change it stored there, which may be a text. -/
def textReporters : List Reporter := [.variable, .listContents, .join, .letterOf, .size]

/-- The slots of reporters from which a text may reach the value of the reporter. -/
def passingSlots : List (Reporter × String) :=
  [(.and, "OPERAND1"), (.and, "OPERAND2"), (.or, "OPERAND1"), (.or, "OPERAND2"), (.add, "NUM1"),
   (.add, "NUM2"), (.random, "FROM")]

/-- The block can report a text whatever its slots hold. -/
inductive OwnText (scope : Scope) (block : Block) : Prop
  | menu {menu : Menu} : block.opcode = .menu menu → OwnText scope block
  | reading {op : Reporter} : block.opcode = .reporter op → op ∈ textReporters → OwnText scope block
  | argument {op : Reporter} {field : Field} : block.opcode = .reporter op →
      op ∈ [.argumentStringNumber, .argumentBoolean] → block.field? "VALUE" = some field →
      scope.hasArgument field.value = true → OwnText scope block
  | look {op : Reporter} {field : Field} : block.opcode = .reporter op →
      op ∈ [.costumeNumberName, .backdropNumberName] → block.field? "NUMBER_NAME" = some field →
      field.value = "name" → OwnText scope block

/-- The block may report a text: one of its own, or one that it is handed. -/
inductive ReportsText (scope : Scope) : BlockId → Prop
  | own {id : BlockId} {block : Block} : scope.target.graph.find? id = some block → OwnText scope block →
      ReportsText scope id
  /-- An item of a list is whatever was stored at its place, if anything was. -/
  | item {id : BlockId} {block : Block} : scope.target.graph.find? id = some block →
      block.opcode = .reporter .itemOfList → ReportsText scope id
  /-- The logical operators take any value, so a literal or a reading in their slots stays as it is. -/
  | direct {id : BlockId} {block : Block} {op : Reporter} {slot : String} {input : Input} :
      scope.target.graph.find? id = some block → block.opcode = .reporter op → op ∈ [.and, .or] →
      (op, slot) ∈ passingSlots → block.input? slot = some input → input.payload.isDirect = true →
      ReportsText scope id
  | passed {id held : BlockId} {block : Block} {op : Reporter} {slot : String} {shadow : Option Payload} :
      scope.target.graph.find? id = some block → block.opcode = .reporter op →
      (op, slot) ∈ passingSlots → block.input? slot = some ⟨.block held, shadow⟩ →
      ReportsText scope held → ReportsText scope id

/-- The slot holds a block that may report a text. -/
def HoldsText (scope : Scope) (owner : Block) (slot : String) : Prop :=
  ∃ held shadow, owner.input? slot = some ⟨.block held, shadow⟩ ∧ ReportsText scope held

/-- The slot holds a literal or a direct reading. -/
def HoldsDirect (owner : Block) (slot : String) : Prop :=
  ∃ input, owner.input? slot = some input ∧ input.payload.isDirect = true

section

variable {scope : Scope} {id : BlockId} {owner : Block}

theorem HoldsText.reportsText {op : Reporter} {slot : String} (text : HoldsText scope owner slot)
    (found : scope.target.graph.find? id = some owner) (opcode : owner.opcode = .reporter op)
    (passing : (op, slot) ∈ passingSlots) : ReportsText scope id := by
  obtain ⟨held, shadow, content, text⟩ := text
  exact .passed found opcode passing content text

/-! ## The rules -/

variable {sub : BlockId → Outcome Operand}

/-- What comes out of a slot that needs a number. -/
theorem numericInput_shape (slot : String) :
    (input sub owner slot .numeric).Gives fun operand =>
      (∃ x, operand = .number x) ∨ operand = .null ∨ (∃ reading, operand = .asNumber reading) ∨
        ∃ held shadow, owner.input? slot = some ⟨.block held, shadow⟩ ∧ (sub held).result = .ok operand := by
  unfold input
  cases content : owner.input? slot with
  | none => exact .after fun _ => .pure (.inr (.inl rfl))
  | some input =>
    obtain ⟨payload, shadow⟩ := input
    cases payload with
    | block held => exact fun operand done _ => .inr (.inr (.inr ⟨held, shadow, rfl, done⟩))
    | empty => exact .after fun _ => .pure (.inr (.inl rfl))
    | «variable» name key | list name key => exact .pure (.inr (.inr (.inl ⟨_, rfl⟩)))
    | literal kind raw =>
      simp only [resolve, literal]
      split
      · exact .pure (.inl ⟨_, rfl⟩)
      · exact .refused rfl

theorem requireField_gives (slot : String) :
    (requireField owner slot : Outcome Field).Gives fun field => owner.field? slot = some field := by
  unfold requireField
  cases content : owner.field? slot with
  | some field => exact .pure rfl
  | none => exact .fail

theorem argument_canBeText {field : Field} {neutral : Operand} (content : owner.field? "VALUE" = some field)
    (known : scope.hasArgument field.value = true) :
    (argument scope owner neutral : Outcome Operand).Gives fun operand => operand.canBeText = true := by
  refine (requireField_gives _).bind fun other found => ?_
  obtain rfl := Option.some.inj (content.symm.trans found)
  simp only [known, if_true]
  exact .pure rfl

theorem numberOrName_canBeText {field : Field} {wearer : Wearer}
    (content : owner.field? "NUMBER_NAME" = some field) (isName : field.value = "name") :
    (numberOrName owner wearer : Outcome Operand).Gives fun operand => operand.canBeText = true := by
  refine (requireField_gives _).bind fun other found => ?_
  obtain rfl := Option.some.inj (content.symm.trans found)
  simp only [isName, if_true]
  exact .pure rfl

/-- The operand of a block with a text of its own has a form that lets it be a text. -/
theorem valueOf_canBeText (own : OwnText scope owner) :
    (valueOf scope sub owner).Gives fun operand => operand.canBeText = true := by
  unfold valueOf
  cases own with
  | menu opcode =>
    rw [opcode]
    exact .after fun _ => .pure rfl
  | @reading op opcode mem =>
    rw [opcode]
    have cases : op = .variable ∨ op = .listContents ∨ op = .join ∨ op = .letterOf ∨ op = .size := by
      simpa [textReporters] using mem
    obtain rfl | rfl | rfl | rfl | rfl := cases
    · exact .after fun _ => .pure rfl
    · exact .after fun _ => .pure rfl
    · exact .after fun _ => .after fun _ => .pure rfl
    · exact .after fun _ => .after fun _ => .pure rfl
    · exact .pure rfl
  | @argument op field opcode mem content known =>
    rw [opcode]
    obtain rfl | rfl : op = .argumentStringNumber ∨ op = .argumentBoolean := by simpa using mem
    · exact argument_canBeText content known
    · exact argument_canBeText content known
  | @look op field opcode mem content isName =>
    rw [opcode]
    obtain rfl | rfl : op = .costumeNumberName ∨ op = .backdropNumberName := by simpa using mem
    · exact numberOrName_canBeText content isName
    · exact numberOrName_canBeText content isName

variable (subs : ∀ held, (sub held).Gives (Operand.PlainUnless (ReportsText scope held)))

include subs

/-- A slot that needs a number gives a text only through a block. -/
theorem numericInput_gives (slot : String) :
    (input sub owner slot .numeric).Gives (Operand.PlainUnless (HoldsText scope owner slot)) := by
  unfold input
  cases content : owner.input? slot with
  | none => exact .after fun _ => .pure (.of_isPlain rfl)
  | some input =>
    obtain ⟨payload, shadow⟩ := input
    cases payload with
    | block held => exact (subs held).mono fun operand fits => fits.imp fun text => ⟨held, shadow, content, text⟩
    | empty => exact .after fun _ => .pure (.of_isPlain rfl)
    | «variable» name key | list name key => exact .pure (.of_isPlain rfl)
    | literal kind raw =>
      simp only [resolve, literal]
      split
      · exact .pure (.of_isPlain rfl)
      · exact .refused rfl

/-- A slot that takes any value may also give a text for a literal or a reading. -/
theorem anyInput_gives (slot : String) :
    (input sub owner slot .any).Gives
      (Operand.PlainUnless (HoldsDirect owner slot ∨ HoldsText scope owner slot)) := by
  unfold input
  cases content : owner.input? slot with
  | none => exact .after fun _ => .pure (.of_isPlain rfl)
  | some input =>
    obtain ⟨payload, shadow⟩ := input
    cases payload with
    | block held =>
      exact (subs held).mono fun operand fits => fits.imp fun text => .inr ⟨held, shadow, content, text⟩
    | empty => exact .after fun _ => .pure (.of_isPlain rfl)
    | «variable» name key | list name key | literal kind raw =>
      exact .pure (.of_text (.inl ⟨_, content, rfl⟩))

/-- Known bounds are numbers; otherwise the lower bound is added to. -/
theorem random_gives : (random sub owner).Gives (Operand.PlainUnless (HoldsText scope owner "FROM")) := by
  unfold random
  split
  · split
    · exact .pure (.of_isPlain rfl)
    · exact .pure (.of_isPlain rfl)
  · exact (numericInput_gives subs _).bind fun _ first => .after fun _ => .pure first.random

omit subs in
/-- The test of a key is true or false. -/
theorem keyPressed_gives {p : Prop} : (keyPressed scope sub owner).Gives (Operand.PlainUnless p) := by
  refine .after fun chosen => ?_
  cases chosen with
  | computed operand => exact .after fun _ => .pure (.of_isPlain rfl)
  | fixed name =>
    simp only
    split
    · exact .pure (.of_isPlain rfl)
    · split
      · exact .pure (.of_isPlain rfl)
      · exact .fail

omit subs in
/-- The test of a touch is true or false. -/
theorem touching_gives {p : Prop} : (touching scope sub owner).Gives (Operand.PlainUnless p) := by
  refine .after fun chosen => ?_
  cases chosen with
  | computed operand => exact .after fun _ => .pure (.of_isPlain rfl)
  | fixed object =>
    simp only
    split
    · exact .pure (.of_isPlain rfl)
    · exact .after fun _ => .pure (.of_isPlain rfl)

omit subs in
theorem mathFunction_gives {p : Prop} : (mathFunction sub owner).Gives (Operand.PlainUnless p) := by
  refine .after fun field => .after fun x => ?_
  split
  · exact .pure (.of_isPlain rfl)
  · exact .fail

omit subs in
/-- A costume is read by its number unless its name is chosen. -/
theorem numberOrName_gives (wearer : Wearer) :
    (numberOrName owner wearer : Outcome Operand).Gives
      (Operand.PlainUnless (∃ field, owner.field? "NUMBER_NAME" = some field ∧ field.value = "name")) := by
  refine (requireField_gives _).bind fun field content => ?_
  simp only
  split
  next isName => exact .pure (.of_text ⟨field, content, isName⟩)
  next =>
    split
    · exact .pure (.of_isPlain rfl)
    · exact .fail

omit subs in
/-- An argument that the procedure does not have is a neutral operand. -/
theorem argument_gives {neutral : Operand} (plain : neutral.isPlain = true) :
    (argument scope owner neutral : Outcome Operand).Gives
      (Operand.PlainUnless
        (∃ field, owner.field? "VALUE" = some field ∧ scope.hasArgument field.value = true)) := by
  refine (requireField_gives _).bind fun field content => ?_
  simp only
  split
  next known => exact .pure (.of_text ⟨field, content, known⟩)
  next => exact .after fun _ => .pure (.of_isPlain plain)

variable (found : scope.target.graph.find? id = some owner)

include found

/-- One reporter: a text is its own or comes through one of its passing slots. -/
theorem reporter_gives {op : Reporter} (opcode : owner.opcode = .reporter op) :
    (reporter scope sub owner op).Gives (Operand.PlainUnless (ReportsText scope id)) := by
  cases op with
  | and | or =>
    refine (anyInput_gives subs _).bind fun _ first => (anyInput_gives subs _).bind fun _ second =>
      .pure ((Operand.PlainUnless.logic (by simp) first second).imp ?_)
    rintro ((⟨input, held, isDirect⟩ | text) | (⟨input, held, isDirect⟩ | text))
    · exact .direct found opcode (by decide) (by decide) held isDirect
    · exact text.reportsText found opcode (by decide)
    · exact .direct found opcode (by decide) (by decide) held isDirect
    · exact text.reportsText found opcode (by decide)
  | add =>
    refine (numericInput_gives subs _).bind fun _ first => (numericInput_gives subs _).bind fun _ second =>
      .pure ((first.sum second).imp ?_)
    rintro (text | text)
    · exact text.reportsText found opcode (by decide)
    · exact text.reportsText found opcode (by decide)
  | random =>
    exact (random_gives subs).mono fun _ fits => fits.imp (·.reportsText found opcode (by decide))
  | costumeNumberName | backdropNumberName =>
    refine (numberOrName_gives _).mono fun _ fits => fits.imp ?_
    rintro ⟨field, content, isName⟩
    exact .own found (.look opcode (by decide) content isName)
  | argumentStringNumber | argumentBoolean =>
    refine (argument_gives rfl).mono fun _ fits => fits.imp ?_
    rintro ⟨field, content, known⟩
    exact .own found (.argument opcode (by decide) content known)
  | «variable» | listContents | join | letterOf | size =>
    have text : ReportsText scope id := .own found (.reading opcode (by decide))
    exact fun _ _ _ => .of_text text
  | itemOfList => exact fun _ _ _ => .of_text (.item found opcode)
  -- Every other reporter has a form whose value can be calculated with.
  | equals | greater | less | contains | listContainsItem | subtract | multiply | divide | modulo
  | itemNumOfList =>
    exact .after fun _ => .after fun _ => .pure (.of_isPlain rfl)
  | not | round | length | lengthOfList => exact .after fun _ => .pure (.of_isPlain rfl)
  | xPosition | yPosition | direction | mouseX | mouseY | mouseDown => exact .pure (.of_isPlain rfl)
  | keyPressed => exact keyPressed_gives
  | touchingObject => exact touching_gives
  | mathFunction => exact mathFunction_gives

theorem valueOf_gives : (valueOf scope sub owner).Gives (Operand.PlainUnless (ReportsText scope id)) := by
  unfold valueOf
  cases opcode : owner.opcode with
  | reporter op => exact reporter_gives subs found opcode
  | menu menu => exact .after fun _ => .pure (.of_text (.own found (.menu opcode)))
  | hat | command | prototype | unknown => exact .after fun _ => .pure (.of_isPlain rfl)

end

/-- The operand of a block is a text only if the block may report one: by recursion along the blocks in
slots. -/
theorem value_gives (scope : Scope) (active : List BlockId) (id : BlockId) :
    (value scope active id).Gives (Operand.PlainUnless (ReportsText scope id)) := by
  fun_induction value scope active id with
  | case1 | case2 => exact .fail
  | case3 active id block found unseen ih => exact valueOf_gives ih found

/-- The sum of two joined digits and a variable. -/
def labelSum : Block :=
  { linkedBlock "sum" (.reporter .add) [] none with
    inputs := [("NUM1", ⟨.block ⟨"label"⟩, none⟩), ("NUM2", ⟨.variable "score" none, none⟩)] }

def labelScope : Scope where
  target := spriteOf
    [labelSum,
     { linkedBlock "label" (.reporter .join) [] none with
       inputs := [("STRING1", ⟨.literal .string "4", none⟩), ("STRING2", ⟨.literal .string "2", none⟩)] }]
  procedures := []

end Compile

end ScratchPage
