import ScratchPage.Proofs.Compile.Likeness.Basic

/-!
# Alike values

Alike blocks become operands that look the same. Each rule for one block is shown to keep this when the
blocks that it holds keep it; the recursion over blocks goes alike on both sides because names that
correspond are met at the same time.
-/

namespace ScratchPage.Likeness
set_option autoImplicit false

open Compile Outcome

variable {like : Likeness}

section

variable {scope scope' : Scope} {owner owner' : Block}
variable {sub sub' : BlockId → Outcome Operand}
variable (scopes : like.SameScope scope scope')
variable (opcode : owner.opcode = owner'.opcode)
variable (inputs : ∀ slot, Option.Rel like.SameInput (owner.input? slot) (owner'.input? slot))
variable (fields : ∀ slot, owner.field? slot = owner'.field? slot)
variable (subs : ∀ {x y : BlockId}, like.names x y → Alike like.SameOperand (sub x) (sub' y))

include fields in
theorem requireField (slot : String) :
    Alike Eq (Compile.requireField owner slot : Outcome Field) (Compile.requireField owner' slot) := by
  unfold Compile.requireField
  rw [fields slot]
  cases owner'.field? slot with
  | some field => exact .pure rfl
  | none => exact .fail rfl

include subs in
/-- Payloads that correspond are resolved alike. -/
theorem resolve (slot : String) {payload payload' : Payload} (same : like.SamePayload payload payload')
    (coercion : Coercion) :
    Alike like.SameOperand (Compile.resolve sub owner slot payload coercion)
      (Compile.resolve sub' owner' slot payload' coercion) := by
  cases same with
  | empty => exact .noted rfl (.pure rfl)
  | block names => exact subs names
  | «variable» name id | list name id => exact .pure rfl
  | @literal kind a b text numbers equal =>
    have texts : like.SameOperand (.text a) (.text b) := by
      simpa [SameOperand, Operand.code, Code.quoted] using text
    cases coercion with
    | any => exact .pure texts
    | numeric =>
      simp only [Compile.resolve, Compile.literal, ← numbers]
      split
      next isNumber =>
        obtain rfl := equal isNumber
        exact .pure rfl
      next => exact .noted rfl (.pure texts)

include inputs subs in
/-- Slots of corresponding blocks are compiled alike. -/
theorem input (slot : String) (coercion : Coercion) :
    Alike like.SameOperand (Compile.input sub owner slot coercion)
      (Compile.input sub' owner' slot coercion) := by
  unfold Compile.input
  obtain ⟨left, right⟩ | ⟨held, held', left, right, same⟩ := rel_cases (inputs slot)
  · rw [left, right]
    exact .noted rfl (.pure rfl)
  · rw [left, right]
    exact resolve subs slot same.payload coercion

include inputs subs in
theorem binary (op : Operator) (left right : String) (coercion : Coercion) :
    Alike like.SameOperand (Compile.binary sub owner op left right coercion)
      (Compile.binary sub' owner' op left right coercion) := by
  refine (input inputs subs left coercion).bind fun l l' first => ?_
  refine (input inputs subs right coercion).bind fun r r' second => .pure ?_
  simp [SameOperand, Operand.code, first, second]

/-- Corresponding inputs are the same constant or are none. -/
theorem constant? {held held' : Option Input} (same : Option.Rel like.SameInput held held') :
    Compile.constant? held = Compile.constant? held' := by
  obtain ⟨rfl, rfl⟩ | ⟨⟨payload, shadow⟩, ⟨payload', shadow'⟩, rfl, rfl, same⟩ := rel_cases same
  · rfl
  · obtain ⟨payloads, -⟩ := same
    cases payloads with
    | empty | block | «variable» | list => rfl
    | @literal kind a b _ numbers equal =>
      unfold Compile.constant?
      cases isNumber : isNumber kind a with
      | true =>
        obtain rfl := equal isNumber
        rfl
      | false => simp only [isNumber, ← numbers, Bool.false_and, Bool.false_eq_true, ↓reduceIte]

include inputs subs in
theorem random : Alike like.SameOperand (Compile.random sub owner) (Compile.random sub' owner') := by
  unfold Compile.random
  rw [constant? (inputs "FROM"), constant? (inputs "TO")]
  split
  · split <;> exact .pure rfl
  · refine (input inputs subs _ _).bind fun l l' first => ?_
    refine (input inputs subs _ _).bind fun r r' second => .pure ?_
    simp [SameOperand, Operand.code, first, second]

include inputs fields subs in
theorem mathFunction :
    Alike like.SameOperand (Compile.mathFunction sub owner) (Compile.mathFunction sub' owner') := by
  refine (requireField fields "OPERATOR").bind fun field _ same => ?_
  subst same
  refine (input inputs subs "NUM" .numeric).bind fun x x' one => ?_
  cases MathFunction.ofName? field.value with
  | some f => exact .pure (by simp [SameOperand, Operand.code, one])
  | none => exact .fail rfl

include scopes inputs subs in
/-- Choices are alike in each of the forms that a slot for a choice can have. -/
theorem choice (slot : String) (menu : Menu) :
    Alike like.SameChoice (Compile.choice scope sub owner slot menu)
      (Compile.choice scope' sub' owner' slot menu) := by
  unfold Compile.choice
  obtain ⟨left, right⟩ | ⟨⟨payload, shadow⟩, ⟨payload', shadow'⟩, left, right, payloads, covers⟩ :=
    rel_cases (inputs slot)
  · rw [left, right]
    exact .fail rfl
  · rw [left, right]
    have contents := payloads
    cases payloads with
    | block names =>
      have computed : Alike like.SameChoice (do return .computed (← sub _))
          (do return .computed (← sub' _)) :=
        (subs names).bind fun _ _ same => .pure (.computed same)
      refine (Alike.attempt (scopes.graph.get names)).bind fun held held' same => ?_
      rw [← same.opcode]
      cases shadow with
      | some covered =>
        obtain ⟨covered', rfl⟩ := Option.isSome_iff_exists.1 covers.symm
        simpa using computed
      | none =>
        obtain rfl : shadow' = none := by simpa using covers
        split
        next isMenu =>
          have held_fields := same.fields (by simp [isMenu.1])
          exact (requireField held_fields _).bind fun _ _ same => .pure (same ▸ .fixed _)
        next =>
          cases held.opcode with
          | reporter op => exact computed
          | hat | command | menu | prototype | unknown => exact .fail rfl
    | empty | literal | «variable» | list =>
      exact (resolve subs slot contents .any).bind fun _ _ same => .pure (.computed same)

include scopes inputs subs in
/-- Tests of keys are alike if the choices are. -/
theorem keyPressed :
    Alike like.SameOperand (Compile.keyPressed scope sub owner) (Compile.keyPressed scope' sub' owner') := by
  refine (choice scopes inputs subs _ _).bind fun chosen chosen' same => ?_
  cases same with
  | computed => exact .noted rfl (.pure rfl)
  | fixed name =>
    simp only
    split
    · exact .pure rfl
    · cases browserKey? name with
      | some key => exact .pure rfl
      | none => exact .fail rfl

include scopes inputs subs in
/-- Tests of touches are alike if the choices are. -/
theorem touching :
    Alike like.SameOperand (Compile.touching scope sub owner) (Compile.touching scope' sub' owner') := by
  refine (choice scopes inputs subs _ _).bind fun chosen chosen' same => ?_
  cases same with
  | computed => exact .noted rfl (.pure rfl)
  | fixed object =>
    simp only
    split
    · exact .pure rfl
    · exact .noted rfl (.pure rfl)

include fields in
theorem numberOrName (wearer : Wearer) :
    Alike like.SameOperand (Compile.numberOrName owner wearer) (Compile.numberOrName owner' wearer) := by
  refine (requireField fields "NUMBER_NAME").bind fun field _ same => ?_
  subst same
  simp only
  split
  · exact .pure rfl
  · split
    · exact .pure rfl
    · exact .fail rfl

include scopes fields in
/-- Whether a name is an argument depends on the signature, which the scopes share. -/
theorem argument (neutral : Operand) :
    Alike like.SameOperand (Compile.argument scope owner neutral)
      (Compile.argument scope' owner' neutral) := by
  refine (requireField fields "VALUE").bind fun field _ same => ?_
  subst same
  simp only [scopes.hasArgument]
  split
  · exact .pure rfl
  · exact .noted rfl (.pure rfl)

include fields in
theorem listKey : Alike Eq (Compile.listKey owner : Outcome String) (Compile.listKey owner') :=
  (requireField fields "LIST").bind fun _ _ same => .pure (same ▸ rfl)

include fields in
theorem variableKey : Alike Eq (Compile.variableKey owner : Outcome String) (Compile.variableKey owner') :=
  (requireField fields "VARIABLE").bind fun _ _ same => .pure (same ▸ rfl)

include scopes inputs fields subs in
/-- The step for reporters, operator by operator. -/
theorem reporter (op : Reporter) :
    Alike like.SameOperand (Compile.reporter scope sub owner op)
      (Compile.reporter scope' sub' owner' op) := by
  cases op with
  | and | or | equals | greater | less | add | subtract | multiply | divide | modulo =>
    exact binary inputs subs _ _ _ _
  | not | round | length =>
    exact (input inputs subs _ _).bind fun _ _ one =>
      .pure (by simp [SameOperand, Operand.code, one])
  | join | contains | letterOf =>
    exact (input inputs subs _ _).bind fun _ _ first =>
      (input inputs subs _ _).bind fun _ _ second =>
        .pure (by simp [SameOperand, Operand.code, first, second])
  | random => exact random inputs subs
  | mathFunction => exact mathFunction inputs fields subs
  | xPosition | yPosition | direction | mouseX | mouseY | mouseDown | size => exact .pure rfl
  | keyPressed => exact keyPressed scopes inputs subs
  | touchingObject => exact touching scopes inputs subs
  | costumeNumberName | backdropNumberName => exact numberOrName fields _
  | «variable» => exact (requireField fields _).bind fun _ _ same => .pure (same ▸ rfl)
  | listContents | lengthOfList => exact (listKey fields).bind fun _ _ same => .pure (same ▸ rfl)
  | itemOfList | itemNumOfList | listContainsItem =>
    exact (listKey fields).bind fun _ _ same => (input inputs subs _ _).bind fun _ _ one =>
      .pure (by simp [SameOperand, Operand.code, same, one])
  | argumentStringNumber | argumentBoolean => exact argument scopes fields _

end

section

variable {scope scope' : Scope} {owner owner' : Block} {sub sub' : BlockId → Outcome Operand}
variable (scopes : like.SameScope scope scope') (blocks : like.SameBlock owner owner')
variable (subs : ∀ {x y : BlockId}, like.names x y → Alike like.SameOperand (sub x) (sub' y))

include scopes blocks subs in
/-- The step for values: a block that is no reporter is missing in both. -/
theorem valueOf :
    Alike like.SameOperand (Compile.valueOf scope sub owner) (Compile.valueOf scope' sub' owner') := by
  unfold Compile.valueOf
  have opcodes := blocks.opcode
  cases opcode : owner.opcode with
  | reporter op =>
    rw [← opcodes, opcode]
    exact reporter scopes blocks.inputs (blocks.fields (by simp [opcode])) subs op
  | menu menu =>
    rw [← opcodes, opcode]
    have fields := blocks.fields (by simp [opcode])
    exact (requireField fields _).bind fun _ _ same => .pure (same ▸ rfl)
  | hat | command | prototype | unknown =>
    rw [← opcodes, opcode]
    exact .noted rfl (.pure rfl)

end

/-- Values are alike: the induction is that of the first compilation, and the second follows it block by block.
-/
theorem value {scope scope' : Scope} (scopes : like.SameScope scope scope') {active active' : List BlockId}
    (walks : List.Forall₂ like.names active active') {x y : BlockId} (names : like.names x y) :
    Alike like.SameOperand (Compile.value scope active x) (Compile.value scope' active' y) := by
  fun_induction Compile.value scope active x generalizing active' y with
  | case1 active x lost =>
    rw [value_of_lost (scopes.graph.lost lost names)]
    exact .fail rfl
  | case2 active x block found seen =>
    obtain ⟨block', found', -⟩ := scopes.graph.find found names
    rw [value_of_find? found', if_pos ((mem_iff walks names).1 seen)]
    exact .fail rfl
  | case3 active x block found unseen ih =>
    obtain ⟨block', found', blocks⟩ := scopes.graph.find found names
    rw [value_of_find? found', if_neg (mt (mem_iff walks names).2 unseen)]
    exact valueOf scopes blocks fun {held _} others => ih held (.cons names walks) others

end ScratchPage.Likeness
