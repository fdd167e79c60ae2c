import ScratchPage.Proofs.Compile.Likeness.Values

/-!
# Alike statements and scripts

Chains of alike blocks become statements whose lines look the same, and targets with alike graphs have
scripts that look the same.
-/

namespace ScratchPage.Likeness
set_option autoImplicit false

open Compile Outcome

variable {like : Likeness}

/-! ## Statements -/

section

variable {scope scope' : Scope} {owner owner' : Block} {sub sub' : BlockId → Outcome Operand}
variable {stack stack' : BlockId → Outcome (List Statement)}
variable (scopes : like.SameScope scope scope')
variable (inputs : ∀ slot, Option.Rel like.SameInput (owner.input? slot) (owner'.input? slot))
variable (fields : ∀ slot, owner.field? slot = owner'.field? slot)
variable (subs : ∀ {x y : BlockId}, like.names x y → Alike like.SameOperand (sub x) (sub' y))
variable (bodies : ∀ {x y : BlockId}, like.names x y → Alike like.SameChain (stack x) (stack' y))

include inputs bodies in
/-- The chains of a slot are alike if the sub-computations for chains are. -/
theorem substack (slot : String) :
    Alike like.SameChain (Compile.substack stack owner slot) (Compile.substack stack' owner' slot) := by
  unfold Compile.substack
  obtain ⟨left, right⟩ | ⟨⟨payload, shadow⟩, ⟨payload', shadow'⟩, left, right, payloads, -⟩ :=
    rel_cases (inputs slot)
  · rw [left, right]
    exact .pure rfl
  · rw [left, right]
    cases payloads with
    | empty => exact .pure rfl
    | block names => exact bodies names
    | literal | «variable» | list => exact .fail rfl

include scopes inputs subs in
/-- Destinations are chosen alike. -/
theorem destination (menu : Menu) :
    Alike Eq (Compile.destination scope sub owner menu) (Compile.destination scope' sub' owner' menu) := by
  refine (choice scopes inputs subs _ _).bind fun chosen chosen' same => ?_
  cases same with
  | computed => exact .noted rfl (.pure rfl)
  | fixed place =>
    simp only
    split
    · exact .pure rfl
    · split
      · exact .pure rfl
      · exact .noted rfl (.pure rfl)

include scopes inputs subs in
theorem appearance (slot : String) (menu : Menu) :
    Alike like.SameOperand (Compile.appearance scope sub owner slot menu)
      (Compile.appearance scope' sub' owner' slot menu) := by
  refine (choice scopes inputs subs _ _).bind fun chosen chosen' same => ?_
  cases same with
  | computed same => exact .pure same
  | fixed name => exact .pure rfl

include fields in
theorem effect : Alike Eq (Compile.effect owner : Outcome Effect) (Compile.effect owner') := by
  refine (requireField fields "EFFECT").bind fun field _ same => ?_
  subst same
  simp only
  cases Effect.ofName? field.value with
  | some e => exact .pure rfl
  | none => exact .fail rfl

include fields in
theorem layer : Alike Eq (Compile.layer owner : Outcome Layer) (Compile.layer owner') := by
  refine (requireField fields "FRONT_BACK").bind fun field _ same => ?_
  subst same
  simp only
  split
  · exact .pure rfl
  · split
    · exact .pure rfl
    · exact .fail rfl

include scopes inputs subs in
theorem pointTowards :
    Alike Eq (Compile.pointTowards scope sub owner) (Compile.pointTowards scope' sub' owner') := by
  refine (choice scopes inputs subs _ _).bind fun chosen chosen' same => ?_
  cases same with
  | computed => exact .noted rfl (.pure rfl)
  | fixed towards =>
    simp only
    split
    · exact .pure rfl
    · exact .noted rfl (.pure rfl)

include scopes inputs subs in
theorem cloneOf :
    Alike Eq (Compile.cloneOf scope sub owner) (Compile.cloneOf scope' sub' owner') := by
  refine (choice scopes inputs subs _ _).bind fun chosen chosen' same => ?_
  cases same with
  | computed => exact .noted rfl (.pure rfl)
  | fixed option =>
    simp only
    split
    · exact .pure rfl
    · exact .noted rfl (.pure rfl)

theorem argumentLines {operands operands' : List Operand}
    (same : List.Forall₂ like.SameOperand operands operands') :
    like.SameLines (operands.map fun a => .plain (a.code ++ ","))
      (operands'.map fun a => .plain (a.code ++ ",")) := by
  induction same with
  | nil => rfl
  | cons first _ ih => simp_all [SameLines, Line.seen]

include scopes inputs subs in
/-- Calls of the same procedure are alike if their arguments are. -/
theorem call (signature : owner.signature = owner'.signature) :
    Alike (fun a b => like.SameLines a.lines b.lines) (Compile.call scope sub owner)
      (Compile.call scope' sub' owner') := by
  unfold Compile.call
  rw [signature, scopes.procedures]
  split
  · exact .fail rfl
  · split
    · have each : ∀ slot slot', slot = slot' → Alike like.SameOperand (Compile.input sub owner slot .any)
          (Compile.input sub' owner' slot' .any) := fun slot _ same => same ▸ input inputs subs slot .any
      refine (Alike.forAll (List.forall₂_same.2 fun _ _ => rfl) each).bind fun _ _ arguments => .pure ?_
      simp [SameLines, Action.lines, argumentLines arguments]
    · exact .noted rfl (.pure rfl)

include scopes inputs fields subs bodies in
/-- The step for commands, operator by operator. -/
theorem command (signature : owner.signature = owner'.signature) (op : Command) :
    Alike like.SameStatement (Compile.command scope sub stack owner op)
      (Compile.command scope' sub' stack' owner' op) := by
  cases op with
  | nextCostume | nextBackdrop | clearGraphicEffects | showSprite | hideSprite | deleteThisClone =>
    exact .pure rfl
  | moveSteps | changeXBy | changeYBy | setX | setY | turnLeft | turnRight | pointInDirection
  | changeSizeBy | setSizeTo | wait | broadcast | broadcastAndWait =>
    exact (input inputs subs _ _).bind fun _ _ one =>
      .pure (by simp [SameStatement, SameLines, Statement.bodyLines, Action.lines, Line.seen, one])
  | waitUntil =>
    exact (input inputs subs _ _).bind fun _ _ one =>
      .pure (by
        simp [SameStatement, SameLines, Statement.bodyLines, loopLines, Statement.untilHead, Line.seen, one])
  | goToXY | sayForSeconds =>
    exact (input inputs subs _ _).bind fun _ _ first =>
      (input inputs subs _ _).bind fun _ _ second =>
        .pure (by
          simp [SameStatement, SameLines, Statement.bodyLines, Action.lines, Line.seen, first, second])
  | glideToXY =>
    exact (input inputs subs _ _).bind fun _ _ first =>
      (input inputs subs _ _).bind fun _ _ second =>
        (input inputs subs _ _).bind fun _ _ third =>
          .pure (by
            simp [SameStatement, SameLines, Statement.bodyLines, Action.lines, Line.seen, first, second, third])
  | goTo =>
    refine (destination scopes inputs subs _).bind fun place _ same => ?_
    subst same
    cases place <;> exact .pure rfl
  | glideTo =>
    refine (input inputs subs _ _).bind fun _ _ seconds => ?_
    refine (destination scopes inputs subs _).bind fun place _ same => ?_
    subst same
    cases place with
    | none => exact .pure rfl
    | some place =>
      exact .pure (by simp [SameStatement, SameLines, Statement.bodyLines, Action.lines, Line.seen, seconds])
  | pointTowards =>
    exact (pointTowards scopes inputs subs).bind fun _ _ same => .pure (same ▸ rfl)
  | createCloneOf => exact (cloneOf scopes inputs subs).bind fun _ _ same => .pure (same ▸ rfl)
  | callProcedure => exact (call scopes inputs subs signature).bind fun _ _ same => .pure same
  | setRotationStyle => exact (requireField fields _).bind fun _ _ same => .pure (same ▸ rfl)
  | switchCostumeTo | switchBackdropTo =>
    exact (appearance scopes inputs subs _ _).bind fun _ _ one =>
      .pure (by simp [SameStatement, SameLines, Statement.bodyLines, Action.lines, Line.seen, one])
  | changeEffectBy | setEffectTo =>
    exact (input inputs subs _ _).bind fun _ _ one => (effect fields).bind fun _ _ same =>
      .pure (by simp [SameStatement, SameLines, Statement.bodyLines, Action.lines, Line.seen, same, one])
  | goToFrontBack => exact (layer fields).bind fun _ _ same => .pure (same ▸ rfl)
  | forever =>
    exact (substack inputs bodies _).bind fun _ _ body =>
      .pure (by simp [SameStatement, SameLines, Statement.bodyLines, loopLines, body])
  | repeatTimes | repeatUntil | branch =>
    exact (input inputs subs _ _).bind fun _ _ one => (substack inputs bodies _).bind fun _ _ body =>
      .pure (by simp [SameStatement, SameLines, Statement.bodyLines, loopLines, Statement.untilHead,
        Statement.branchHead, Line.seen, one, body])
  | branchElse =>
    exact (input inputs subs _ _).bind fun _ _ one =>
      (substack inputs bodies _).bind fun _ _ body => (substack inputs bodies _).bind fun _ _ other =>
        .pure (by
          simp [SameStatement, SameLines, Statement.bodyLines, Statement.branchHead, Line.seen, one, body, other])
  | setVariableTo | changeVariableBy =>
    exact (variableKey fields).bind fun _ _ same => (input inputs subs _ _).bind fun _ _ one =>
      .pure (by simp [SameStatement, SameLines, Statement.bodyLines, Action.lines, Line.seen, same, one])
  | addToList =>
    exact (listKey fields).bind fun _ _ same => (input inputs subs _ _).bind fun _ _ one =>
      .pure (by simp [SameStatement, SameLines, Statement.bodyLines, Action.lines, Line.seen, same, one])
  | deleteOfList =>
    exact (listKey fields).bind fun _ _ same => (input inputs subs _ _).bind fun _ _ one =>
      .pure (by
        simp [SameStatement, SameLines, Statement.bodyLines, Action.lines, Action.listPlace, Line.seen, same, one])
  | deleteAllOfList => exact (listKey fields).bind fun _ _ same => .pure (same ▸ rfl)
  | insertAtList | replaceItemOfList =>
    exact (listKey fields).bind fun _ _ same => (input inputs subs _ _).bind fun _ _ item =>
      (input inputs subs _ _).bind fun _ _ index =>
        .pure (by simp [SameStatement, SameLines, Statement.bodyLines, Action.lines, Action.listPlace,
          Action.guarded, Line.seen, same, item, index])

end

/-- The step for statements: a block that is no command is left out in both. -/
theorem statementOf {scope scope' : Scope} {owner owner' : Block} {sub sub' : BlockId → Outcome Operand}
    {stack stack' : BlockId → Outcome (List Statement)} (scopes : like.SameScope scope scope')
    (blocks : like.SameBlock owner owner')
    (subs : ∀ {x y : BlockId}, like.names x y → Alike like.SameOperand (sub x) (sub' y))
    (bodies : ∀ {x y : BlockId}, like.names x y → Alike like.SameChain (stack x) (stack' y)) :
    Alike like.SameStatement (Compile.statementOf scope sub stack owner)
      (Compile.statementOf scope' sub' stack' owner') := by
  unfold Compile.statementOf
  have opcodes := blocks.opcode
  cases opcode : owner.opcode with
  | command op =>
    rw [← opcodes, opcode]
    exact command scopes blocks.inputs (blocks.fields (by simp [opcode])) subs bodies blocks.signature op
  | hat | reporter | menu | prototype | unknown =>
    rw [← opcodes, opcode]
    exact .noted rfl (.pure rfl)

/-- Chains of alike blocks. -/
theorem walk {graph graph' : Graph} (graphs : like.SameGraph graph graph') {met met' : List BlockId}
    (walks : List.Forall₂ like.names met met') {x y : BlockId} (names : like.names x y) :
    SameResult (List.Forall₂ like.SameBlock) (graph.walk met x) (graph'.walk met' y) := by
  fun_induction Graph.walk graph met x generalizing met' y with
  | case1 met x lost =>
    rw [walk_of_lost (graphs.lost lost names)]
    exact .error rfl
  | case2 met x block found seen =>
    obtain ⟨block', found', -⟩ := graphs.find found names
    rw [walk_of_find? found', if_pos ((mem_iff walks names).1 seen)]
    exact .error rfl
  | case3 met x block found unseen last =>
    obtain ⟨block', found', blocks⟩ := graphs.find found names
    rw [walk_of_find? found', if_neg (mt (mem_iff walks names).2 unseen)]
    obtain ⟨-, right⟩ | ⟨_, _, left, -⟩ := rel_cases blocks.next
    · rw [right]
      exact .ok (.cons blocks .nil)
    · rw [last] at left
      cases left
  | case4 met x block found unseen next more ih =>
    obtain ⟨block', found', blocks⟩ := graphs.find found names
    rw [walk_of_find? found', if_neg (mt (mem_iff walks names).2 unseen)]
    obtain ⟨left, -⟩ | ⟨_, next', left, right, others⟩ := rel_cases blocks.next
    · rw [more] at left
      cases left
    · obtain rfl : next = _ := Option.some.inj (more.symm.trans left)
      rw [right]
      exact (ih (.cons names walks) others).map fun rest => .cons blocks rest

theorem chainLines {chain chain' : List Statement}
    (same : List.Forall₂ like.SameStatement chain chain') : like.SameChain chain chain' := by
  induction same with
  | nil => rfl
  | cons first _ ih => simp_all [SameStatement, SameChain, SameLines, Statement.chainLines, Statement.inBraces]

/-- The run along chains that start at corresponding names. -/
theorem chainOf {graph graph' : Graph} (graphs : like.SameGraph graph graph')
    {one one' : BlockId → Outcome Statement}
    (ones : ∀ {x y : BlockId}, like.names x y → Alike like.SameStatement (one x) (one' y))
    {start start' : Option BlockId} (starts : Option.Rel like.names start start') :
    Alike like.SameChain (Compile.chainOf graph one start) (Compile.chainOf graph' one' start') := by
  have chains : SameResult (List.Forall₂ like.SameBlock) (graph.chain start) (graph'.chain start') := by
    cases starts with
    | none => exact .ok .nil
    | some names => exact walk graphs .nil names
  unfold Compile.chainOf
  generalize graph.chain start = result at chains
  generalize graph'.chain start' = result' at chains
  cases chains with
  | ok blocks => exact (Alike.forAll blocks fun _ _ same => ones same.id).mono chainLines
  | error same => exact .fail same

/-- Statements are alike: the induction is that of the first compilation, and the second follows it block by
block. -/
theorem statement {scope scope' : Scope} (scopes : like.SameScope scope scope')
    {active active' : List BlockId} (walks : List.Forall₂ like.names active active') {x y : BlockId}
    (names : like.names x y) :
    Alike like.SameStatement (Compile.statement scope active x) (Compile.statement scope' active' y) := by
  fun_induction Compile.statement scope active x generalizing active' y with
  | case1 active x lost =>
    rw [statement_of_lost (scopes.graph.lost lost names)]
    exact .fail rfl
  | case2 active x block found seen =>
    obtain ⟨block', found', -⟩ := scopes.graph.find found names
    rw [statement_of_find? found', if_pos ((mem_iff walks names).1 seen)]
    exact .fail rfl
  | case3 active x block found unseen ih =>
    obtain ⟨block', found', blocks⟩ := scopes.graph.find found names
    rw [statement_of_find? found', if_neg (mt (mem_iff walks names).2 unseen)]
    refine statementOf scopes blocks (value scopes (.cons names walks)) fun starts => ?_
    exact chainOf scopes.graph (fun {held _} others => ih held (.cons names walks) others) (.some starts)

theorem chain {scope scope' : Scope} (scopes : like.SameScope scope scope') {start start' : Option BlockId}
    (starts : Option.Rel like.names start start') :
    Alike like.SameChain (Compile.chain scope start) (Compile.chain scope' start') :=
  chainOf scopes.graph (statement scopes .nil) starts

/-! ## Scripts -/

/-- Corresponding definitions have the same signature. -/
theorem definedSignature {graph graph' : Graph} (graphs : like.SameGraph graph graph') {block block' : Block}
    (blocks : like.SameBlock block block') :
    SameResult Eq (Compile.definedSignature graph block) (Compile.definedSignature graph' block') := by
  unfold Compile.definedSignature
  obtain ⟨left, right⟩ | ⟨⟨payload, shadow⟩, ⟨payload', shadow'⟩, left, right, payloads, -⟩ :=
    rel_cases (blocks.inputs "custom_block")
  · rw [left, right]
    exact .error rfl
  · rw [left, right]
    cases payloads with
    | empty | literal | «variable» | list => exact .error rfl
    | @block x y names =>
      simp only [Option.bind_some, Input.blockId?, Payload.blockId?]
      have prototypes := graphs.get names
      generalize graph.get x = result at prototypes
      generalize graph'.get y = result' at prototypes
      cases prototypes with
      | error same => exact .error same
      | @ok prototype prototype' same =>
        simp only [same.signature]
        cases prototype'.signature with
        | some signature => exact .ok rfl
        | none => exact .error rfl

/-- The run over the definitions of a target. -/
theorem definedProcedures {graph graph' : Graph} (graphs : like.SameGraph graph graph')
    {blocks blocks' : List Block} (same : List.Forall₂ like.SameBlock blocks blocks') :
    SameResult Eq (Compile.definedProcedures graph blocks) (Compile.definedProcedures graph' blocks') := by
  induction same with
  | nil => exact .ok rfl
  | @cons block block' blocks blocks' first _ ih =>
    unfold Compile.definedProcedures
    rw [← first.opcode]
    split
    · have signatures := definedSignature graphs first
      generalize Compile.definedSignature graph block = result at signatures
      generalize Compile.definedSignature graph' block' = result' at signatures
      cases signatures with
      | error same => exact .error same
      | ok same =>
        subst same
        exact ih.map fun same => same ▸ rfl
    · exact ih

/-- Both have no script, or alike scripts. -/
abbrev SameScript? (like : Likeness) : Option Script → Option Script → Prop := Option.Rel like.SameScript

section

variable {scope scope' : Scope} {block block' : Block}
variable (scopes : like.SameScope scope scope') (blocks : like.SameBlock block block')

theorem unsupported :
    Alike like.SameScript? (Compile.unsupported scope block) (Compile.unsupported scope' block') :=
  .noted rfl (.pure .none)

include scopes blocks in
/-- Corresponding definitions become the same script, with bodies that are alike. -/
theorem procedure :
    Alike like.SameScript? (Compile.procedure Compile.chain scope block)
      (Compile.procedure Compile.chain scope' block') := by
  refine (Alike.attempt (definedSignature scopes.graph blocks)).bind fun signature _ same => ?_
  subst same
  have inner : like.SameScope { scope with signature := some signature }
      { scope' with signature := some signature } := ⟨scopes.graph, scopes.procedures, rfl⟩
  have others : Alike like.SameScript?
      (do return some (.procedure signature
        (← Compile.chain { scope with signature := some signature } block.next)))
      (do return some (.procedure signature
        (← Compile.chain { scope' with signature := some signature } block'.next))) :=
    (chain inner blocks.next).bind fun _ _ body =>
      .pure (.some (by simp [SameScript, SameLines, Script.lines, body]))
  simp only
  split
  · exact .noted rfl others
  · exact others

include scopes blocks in
/-- The step for hats. -/
theorem hat {op : Hat} (opcode : block.opcode = .hat op) :
    Alike like.SameScript? (Compile.hat Compile.chain scope block op)
      (Compile.hat Compile.chain scope' block' op) := by
  cases op with
  | whenFlagClicked | startAsClone =>
    exact (chain scopes blocks.next).bind fun _ _ body =>
      .pure (.some (by simp [SameScript, SameLines, Script.lines, body]))
  | whenBroadcastReceived =>
    have messages : Alike (fun f g => like.SameText f.value g.value)
        (Compile.requireField block "BROADCAST_OPTION" : Outcome Field)
        (Compile.requireField block' "BROADCAST_OPTION") := by
      unfold Compile.requireField
      obtain ⟨left, right⟩ | ⟨_, _, left, right, same⟩ := rel_cases (blocks.message opcode)
      · rw [left, right]
        exact .fail rfl
      · rw [left, right]
        exact .pure same
    exact messages.bind fun _ _ message => (chain scopes blocks.next).bind fun _ _ body =>
      .pure (.some (by simp [SameScript, SameLines, Script.lines, Line.seen, Code.quoted, message, body]))
  | defineProcedure => exact procedure scopes blocks
  | whenThisSpriteClicked | whenStageClicked | whenKeyPressed | whenBackdropSwitchesTo
  | whenGreaterThan => exact unsupported

include scopes blocks in
/-- Corresponding top-level blocks become scripts that are alike, or none. -/
theorem script :
    Alike like.SameScript? (Compile.script Compile.chain scope block)
      (Compile.script Compile.chain scope' block') := by
  unfold Compile.script
  have opcodes := blocks.opcode
  cases opcode : block.opcode with
  | hat op =>
    rw [← opcodes, opcode]
    exact hat scopes blocks opcode
  | command | reporter | menu | prototype | unknown =>
    rw [← opcodes, opcode]
    exact .noted rfl (.pure .none)

end

/-- Targets with alike graphs have alike scripts. -/
theorem scripts {target target' : Target} (graphs : like.SameGraph target.graph target'.graph) :
    Alike (List.Forall₂ like.SameScript) (Compile.scripts target) (Compile.scripts target') := by
  refine (Alike.attempt (definedProcedures graphs graphs.topLevel)).bind fun procedures _ same => ?_
  subst same
  have scopes : like.SameScope { target, procedures } { target := target', procedures } := ⟨graphs, rfl, rfl⟩
  refine (Alike.forAll graphs.topLevel fun _ _ blocks => script scopes blocks).bind fun _ _ found => .pure ?_
  exact List.rel_filterMap (fun _ _ same => same) found

end ScratchPage.Likeness
