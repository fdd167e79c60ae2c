import Mathlib.Algebra.Ring.Nat
import ScratchPage.Compile.Target
import ScratchPage.Proofs.Compile.Outcome
import ScratchPage.Proofs.Lexical.Texture

/-!
# Where marks come from

A block without code leaves a gap, and each gap is paid for by a warning of its own; an argument is read
only in the procedure that it belongs to. Both are shown at once: marks are given weights, a gap no more
than one and the arguments in scope none, and what a step gives weighs no more than the warnings that it
raises (`Pays`). Counting gaps and forbidding arguments are two choices of weights.
-/

namespace ScratchPage
set_option autoImplicit false

/-- What marks weigh together. -/
def load (weight : Mark → Nat) (marks : List Mark) : Nat := (marks.map weight).sum

section

variable (weight : Mark → Nat)

@[simp] theorem load_nil : load weight [] = 0 := rfl

@[simp] theorem load_singleton (mark : Mark) : load weight [mark] = weight mark := by simp [load]

@[simp] theorem load_append (a b : List Mark) : load weight (a ++ b) = load weight a + load weight b := by
  simp [load]

theorem load_flatMap {α : Type} (marks : α → List Mark) (items : List α) :
    load weight (items.flatMap marks) = (items.map fun a => load weight (marks a)).sum := by
  induction items with
  | nil => rfl
  | cons a items ih => simp [ih]

theorem load_chainMarks (body : List Statement) :
    load weight (Statement.chainMarks body) = (body.map fun st => load weight st.marks).sum := by
  induction body with
  | nil => rfl
  | cons st body ih => simp [Statement.chainMarks, ih]

end

theorem Log.count_append (a b : Log) (severity : Severity) :
    Log.count (a ++ b) severity = Log.count a severity + Log.count b severity := by
  simp [Log.count]

namespace Outcome

variable {α β : Type}

/-- What a step gives weighs no more than what was at hand and the warnings that the step raises. -/
def Pays (x : Outcome α) (held : Nat) (cost : α → Nat) : Prop :=
  ∀ a, x.result = .ok a → cost a ≤ held + x.raised.count .warning

namespace Pays

variable {held : Nat} {cost : α → Nat} {total : β → Nat}

theorem pure {a : α} (paid : cost a ≤ held) : (Pure.pure a : Outcome α).Pays held cost := by
  intro b done
  cases done
  omega

theorem fail {e : CompileError} : (Compiling.fail e : Outcome α).Pays held cost := by
  intro a done
  cases done

/-- What the first step pays for is at hand in the next one. -/
theorem bind {x : Outcome α} {f : α → Outcome β} (first : x.Pays 0 cost)
    (next : ∀ a, (f a).Pays (held + cost a) total) : (x >>= f).Pays held total := by
  intro b done
  obtain ⟨a, found, last⟩ := bind_eq_ok.1 done
  have paid := first a found
  have owed := next a b last
  rw [bind_raised found, Log.count_append]
  omega

/-- A step that gives nothing of weight. -/
theorem after {x : Outcome α} {f : α → Outcome β} (next : ∀ a, (f a).Pays held total) :
    (x >>= f).Pays held total := by
  have nothing : x.Pays 0 fun _ => 0 := fun _ _ => Nat.zero_le _
  exact bind nothing next

/-- A warning pays for one gap. -/
theorem warned {f : Finding} {x : Outcome α} (warning : f.severity = .warning) (pays : x.Pays (held + 1) cost) :
    (do Compile.note f; x : Outcome α).Pays held cost := by
  intro a done
  obtain ⟨_, -, last⟩ := bind_eq_ok.1 done
  have owed := pays a last
  have noted : Log.count (Compile.note f : Outcome Unit).raised .warning = 1 := by
    simp [Compile.note, Compiling.report, Log.count, Finding.diagnostic, warning]
  rw [bind_raised rfl, Log.count_append, noted]
  omega

/-- Steps for several items pay for the sum. -/
theorem forAll {step : α → Outcome β} {items : List α} (each : ∀ a ∈ items, (step a).Pays 0 total) :
    (Compiling.forAll step items : Outcome (List β)).Pays 0 fun found => (found.map total).sum := by
  induction items with
  | nil => exact .pure (by simp)
  | cons a items ih =>
    refine bind (each a (by simp)) fun b => ?_
    refine bind (ih fun c mem => each c (by simp [mem])) fun rest => .pure ?_
    simp

end Pays

end Outcome

namespace Compile

open Outcome

section

variable {scope : Scope} {weight : Mark → Nat} (gap : weight .gap ≤ 1)
  (inScope : ∀ name, scope.hasArgument name = true → weight (.argument name) = 0)
  {sub : BlockId → Outcome Operand} (values : ∀ id, (sub id).Pays 0 fun operand => load weight operand.marks)
  {stack : BlockId → Outcome (List Statement)}
  (bodies : ∀ start, (stack start).Pays 0 fun body => load weight (Statement.chainMarks body))
  (owner : Block)

/-! ## Values -/

include values in
/-- Values at hand weigh nothing, and a block pays for its own. -/
theorem resolve_pays (slot : String) (payload : Payload) (coercion : Coercion) :
    (resolve sub owner slot payload coercion).Pays 0 fun operand => load weight operand.marks := by
  cases payload with
  | empty => exact .after fun _ => .pure (by simp [Operand.marks])
  | literal kind raw =>
    cases coercion with
    | any => exact .pure (by simp [Operand.marks])
    | numeric =>
      simp only [resolve, literal]
      split
      · exact .pure (by simp [Operand.marks])
      · exact .after fun _ => .pure (by simp [Operand.marks])
  | «variable» name id | list name id => cases coercion <;> exact .pure (by simp [reading, Operand.marks])
  | block id => exact values id

include values in
theorem input_pays (slot : String) (coercion : Coercion) :
    (input sub owner slot coercion).Pays 0 fun operand => load weight operand.marks := by
  unfold input
  split
  · exact resolve_pays values owner slot _ coercion
  · exact .after fun _ => .pure (by simp [Operand.marks])

include values in
theorem binary_pays (op : Operator) (left right : String) (coercion : Coercion) :
    (binary sub owner op left right coercion).Pays 0 fun operand => load weight operand.marks :=
  .bind (input_pays values owner left coercion) fun _ =>
    .bind (input_pays values owner right coercion) fun _ => .pure (by simp [Operand.marks])

/-- The weight of a choice. -/
def choiceLoad (weight : Mark → Nat) : Choice → Nat
  | .fixed _ => 0
  | .computed operand => load weight operand.marks

include values in
/-- A choice weighs what the operand in its place weighs. -/
theorem choice_pays (slot : String) (menu : Menu) :
    (choice scope sub owner slot menu).Pays 0 (choiceLoad weight) := by
  unfold choice
  split
  · exact .fail
  · refine .after fun held => ?_
    split
    · exact .after fun _ => .pure (by simp [choiceLoad])
    · split
      · exact .bind (values _) fun _ => .pure (by simp [choiceLoad])
      · exact .bind (values _) fun _ => .pure (by simp [choiceLoad])
      · exact .fail
  · exact .bind (resolve_pays values owner slot _ _) fun _ => .pure (by simp [choiceLoad])

include values in
theorem random_pays : (random sub owner).Pays 0 fun operand => load weight operand.marks := by
  unfold random
  split
  · split <;> exact .pure (by simp [Operand.marks])
  · exact .bind (input_pays values owner _ _) fun _ =>
      .bind (input_pays values owner _ _) fun _ => .pure (by simp [Operand.marks])

include values in
theorem mathFunction_pays : (mathFunction sub owner).Pays 0 fun operand => load weight operand.marks := by
  refine .after fun _ => .bind (input_pays values owner _ _) fun _ => ?_
  split
  · exact .pure (by simp [Operand.marks])
  · exact .fail

/-- The test of a key weighs nothing, whatever is chosen. -/
theorem keyPressed_pays : (keyPressed scope sub owner).Pays 0 fun operand => load weight operand.marks := by
  refine .after fun chosen => ?_
  split
  · exact .after fun _ => .pure (by simp [Operand.marks])
  · split
    · exact .pure (by simp [Operand.marks])
    · split
      · exact .pure (by simp [Operand.marks])
      · exact .fail

theorem touching_pays : (touching scope sub owner).Pays 0 fun operand => load weight operand.marks := by
  refine .after fun chosen => ?_
  split
  · split
    · exact .pure (by simp [Operand.marks])
    · exact .after fun _ => .pure (by simp [Operand.marks])
  · exact .after fun _ => .pure (by simp [Operand.marks])

/-- Readings of costumes weigh nothing. -/
theorem numberOrName_pays (wearer : Wearer) :
    (numberOrName owner wearer : Outcome Operand).Pays 0 fun operand => load weight operand.marks := by
  refine .after fun _ => ?_
  dsimp only
  split
  · exact .pure (by simp [Operand.marks])
  · split
    · exact .pure (by simp [Operand.marks])
    · exact .fail

include inScope in
/-- An argument in scope weighs nothing, and elsewhere it is not read. -/
theorem argument_pays {neutral : Operand} (plain : neutral.marks = []) :
    (argument scope owner neutral : Outcome Operand).Pays 0 fun operand => load weight operand.marks := by
  refine .after fun field => ?_
  dsimp only
  split
  · next known => exact .pure (by simp [Operand.marks, inScope _ known])
  · exact .after fun _ => .pure (by simp [plain])

include values inScope in
/-- The step for reporters: each pays for the operands that it holds. -/
theorem reporter_pays (op : Reporter) :
    (reporter scope sub owner op).Pays 0 fun operand => load weight operand.marks := by
  have slot := fun slot coercion => input_pays values owner slot coercion
  cases op with
  | and | or | equals | greater | less | add | subtract | multiply | divide | modulo =>
    exact binary_pays values owner _ _ _ _
  | not | round | length => exact .bind (slot _ _) fun _ => .pure (by simp [Operand.marks])
  | random => exact random_pays values owner
  | mathFunction => exact mathFunction_pays values owner
  | join | contains =>
    exact .bind (slot _ _) fun _ => .bind (slot _ _) fun _ => .pure (by simp [Operand.marks])
  | letterOf =>
    exact .bind (slot _ _) fun _ => .bind (slot _ _) fun _ => .pure (by simp [Operand.marks, Nat.add_comm])
  | xPosition | yPosition | direction | mouseX | mouseY | mouseDown | size =>
    exact .pure (by simp [Operand.marks])
  | keyPressed => exact keyPressed_pays owner
  | touchingObject => exact touching_pays owner
  | costumeNumberName | backdropNumberName => exact numberOrName_pays owner _
  | «variable» | listContents | lengthOfList => exact .after fun _ => .pure (by simp [Operand.marks])
  | itemOfList | itemNumOfList | listContainsItem =>
    exact .after fun _ => .bind (slot _ _) fun _ => .pure (by simp [Operand.marks])
  | argumentStringNumber | argumentBoolean => exact argument_pays inScope owner rfl

include values inScope gap in
theorem valueOf_pays : (valueOf scope sub owner).Pays 0 fun operand => load weight operand.marks := by
  unfold valueOf
  split
  · exact reporter_pays inScope values owner _
  · exact .after fun _ => .pure (by simp [Operand.marks])
  · exact .warned rfl (.pure (by simpa [Operand.marks] using gap))

/-! ## Statements -/

include bodies in
/-- An empty slot weighs nothing. -/
theorem substack_pays (slot : String) :
    (substack stack owner slot).Pays 0 fun body => load weight (Statement.chainMarks body) := by
  unfold substack
  split
  · exact .pure (by simp [Statement.chainMarks])
  · exact .pure (by simp [Statement.chainMarks])
  · exact bodies _
  · exact .fail

/-- The weight of a place: a place without code is a gap. -/
def placeLoad (weight : Mark → Nat) : Option Destination → Nat
  | some _ => 0
  | none => weight .gap

include gap in
/-- A place without code is warned about. -/
theorem destination_pays (menu : Menu) : (destination scope sub owner menu).Pays 0 (placeLoad weight) := by
  refine .after fun chosen => ?_
  split
  · split
    · exact .pure (by simp [placeLoad])
    · split
      · exact .pure (by simp [placeLoad])
      · exact .warned rfl (.pure (by simpa [placeLoad] using gap))
  · exact .warned rfl (.pure (by simpa [placeLoad] using gap))

include values in
theorem appearance_pays (slot : String) (menu : Menu) :
    (appearance scope sub owner slot menu).Pays 0 fun operand => load weight operand.marks := by
  refine .bind (choice_pays values owner slot menu) fun chosen => ?_
  cases chosen with
  | fixed name => exact .pure (by simp [Operand.marks])
  | computed operand => exact .pure (by simp [choiceLoad])

include gap in
theorem pointTowards_pays : (pointTowards scope sub owner).Pays 0 fun act => load weight act.marks := by
  refine .after fun chosen => ?_
  split
  · split
    · exact .pure (by simp [Action.marks, Action.operands])
    · exact .warned rfl (.pure (by simpa [Action.marks] using gap))
  · exact .warned rfl (.pure (by simpa [Action.marks] using gap))

include gap in
theorem cloneOf_pays : (cloneOf scope sub owner).Pays 0 fun act => load weight act.marks := by
  refine .after fun chosen => ?_
  split
  · split
    · exact .pure (by simp [Action.marks, Action.operands])
    · exact .warned rfl (.pure (by simpa [Action.marks] using gap))
  · exact .warned rfl (.pure (by simpa [Action.marks] using gap))

include gap values in
/-- A call pays for its arguments, and is warned about if it is not resolved. -/
theorem call_pays : (call scope sub owner).Pays 0 fun act => load weight act.marks := by
  unfold call
  split
  · exact .fail
  · split
    · refine .bind (.forAll fun slot _ => input_pays values owner slot .any) fun arguments => .pure ?_
      simp [Action.marks, Action.operands, load_flatMap]
    · exact .warned rfl (.pure (by simpa [Action.marks] using gap))

include gap values bodies in
/-- The step for commands: each pays for the operands and the chains that it holds. -/
theorem command_pays (op : Command) :
    (command scope sub stack owner op).Pays 0 fun st => load weight st.marks := by
  have slot := fun slot coercion => input_pays values owner slot coercion
  have body := fun slot => substack_pays bodies owner slot
  cases op with
  | moveSteps | changeXBy | changeYBy | setX | setY | turnLeft | turnRight | pointInDirection | changeSizeBy
  | setSizeTo | wait | broadcast | broadcastAndWait =>
    exact .bind (slot _ _) fun _ => .pure (by simp [Statement.marks, Action.marks, Action.operands])
  | goToXY | sayForSeconds =>
    exact .bind (slot _ _) fun _ => .bind (slot _ _) fun _ =>
      .pure (by simp [Statement.marks, Action.marks, Action.operands])
  | glideToXY =>
    exact .bind (slot _ _) fun _ => .bind (slot _ _) fun _ => .bind (slot _ _) fun _ =>
      .pure (by simp [Statement.marks, Action.marks, Action.operands, Nat.add_assoc])
  | goTo =>
    refine .bind (destination_pays gap owner _) fun place => ?_
    cases place <;> exact .pure (by simp [Statement.marks, Action.marks, Action.operands, placeLoad])
  | glideTo =>
    refine .bind (slot _ _) fun _ => .bind (destination_pays gap owner _) fun place => ?_
    cases place <;> exact .pure (by simp [Statement.marks, Action.marks, Action.operands, placeLoad])
  | pointTowards => exact .bind (pointTowards_pays gap owner) fun _ => .pure (by simp [Statement.marks])
  | createCloneOf => exact .bind (cloneOf_pays gap owner) fun _ => .pure (by simp [Statement.marks])
  | callProcedure => exact .bind (call_pays gap values owner) fun _ => .pure (by simp [Statement.marks])
  | switchCostumeTo | switchBackdropTo =>
    exact .bind (appearance_pays values owner _ _) fun _ =>
      .pure (by simp [Statement.marks, Action.marks, Action.operands])
  | nextCostume | nextBackdrop | clearGraphicEffects | showSprite | hideSprite | deleteThisClone =>
    exact .pure (by simp [Statement.marks, Action.marks, Action.operands])
  | setRotationStyle | goToFrontBack | deleteAllOfList =>
    exact .after fun _ => .pure (by simp [Statement.marks, Action.marks, Action.operands])
  | changeEffectBy | setEffectTo =>
    exact .bind (slot _ _) fun _ => .after fun _ =>
      .pure (by simp [Statement.marks, Action.marks, Action.operands])
  | setVariableTo | changeVariableBy | addToList | deleteOfList =>
    exact .after fun _ => .bind (slot _ _) fun _ =>
      .pure (by simp [Statement.marks, Action.marks, Action.operands])
  | insertAtList | replaceItemOfList =>
    exact .after fun _ => .bind (slot _ _) fun _ => .bind (slot _ _) fun _ =>
      .pure (by simp [Statement.marks, Action.marks, Action.operands, Nat.add_comm])
  | forever => exact .bind (body _) fun _ => .pure (by simp [Statement.marks])
  | repeatTimes | repeatUntil | branch =>
    exact .bind (slot _ _) fun _ => .bind (body _) fun _ => .pure (by simp [Statement.marks])
  | waitUntil => exact .bind (slot _ _) fun _ => .pure (by simp [Statement.marks])
  | branchElse =>
    exact .bind (slot _ _) fun _ => .bind (body _) fun _ => .bind (body _) fun _ =>
      .pure (by simp [Statement.marks, Nat.add_assoc])

include gap values bodies in
theorem statementOf_pays : (statementOf scope sub stack owner).Pays 0 fun st => load weight st.marks := by
  unfold statementOf
  split
  · exact command_pays gap values bodies owner _
  · exact .warned rfl (.pure (by simpa [Statement.marks, Action.marks] using gap))

/-- The run along a chain pays for its statements. -/
theorem chainOf_pays {graph : Graph} {one : BlockId → Outcome Statement}
    (each : ∀ id, (one id).Pays 0 fun st => load weight st.marks) (start : Option BlockId) :
    (chainOf graph one start).Pays 0 fun body => load weight (Statement.chainMarks body) := by
  unfold chainOf
  split
  · next blocks _ =>
    have all : (Compiling.forAll (fun block => one block.id) blocks : Outcome _).Pays 0 _ :=
      .forAll fun block _ => each block.id
    simpa only [load_chainMarks] using all
  · exact .fail

end

section

variable {scope : Scope} {weight : Mark → Nat} (gap : weight .gap ≤ 1)
  (inScope : ∀ name, scope.hasArgument name = true → weight (.argument name) = 0)

include gap inScope

/-- The operand for a block weighs no more than the warnings that are raised for it. -/
theorem value_pays (active : List BlockId) (id : BlockId) :
    (value scope active id).Pays 0 fun operand => load weight operand.marks := by
  fun_induction value scope active id with
  | case1 | case2 => exact .fail
  | case3 active id block found new ih => exact valueOf_pays gap inScope ih block

/-- The statement for a block weighs no more than the warnings that are raised for it. -/
theorem statement_pays (active : List BlockId) (id : BlockId) :
    (statement scope active id).Pays 0 fun st => load weight st.marks := by
  fun_induction statement scope active id with
  | case1 | case2 => exact .fail
  | case3 active id block found new ih =>
    exact statementOf_pays gap (value_pays gap inScope _) (fun start => chainOf_pays ih (some start)) block

theorem chain_pays (start : Option BlockId) :
    (chain scope start).Pays 0 fun body => load weight (Statement.chainMarks body) :=
  chainOf_pays (statement_pays gap inScope []) start

end

/-! ## Scripts -/

/-- The weight of the script that a block starts, if it starts one. -/
def scriptLoad (weight : Mark → Nat) : Option Script → Nat
  | some script => load weight script.marks
  | none => 0

section

variable {weight : Mark → Nat} (gap : weight .gap ≤ 1) (free : ∀ name, weight (.argument name) = 0)

include gap free

/-- A definition pays for the body of its procedure. -/
theorem procedure_pays (scope : Scope) (block : Block) :
    (procedure chain scope block).Pays 0 (scriptLoad weight) := by
  refine .after fun signature => ?_
  have last : (do return some (.procedure signature (← chain { scope with signature } block.next)) :
      Outcome (Option Script)).Pays 0 (scriptLoad weight) :=
    .bind (chain_pays gap (fun name _ => free name) block.next) fun body =>
      .pure (by simp [scriptLoad, Script.marks, Script.body])
  dsimp only
  split
  · exact .after fun _ => last
  · exact last

/-- A top-level block pays for its script, if it has one. -/
theorem script_pays (scope : Scope) (block : Block) : (script chain scope block).Pays 0 (scriptLoad weight) := by
  have body : (chain scope block.next).Pays 0 _ := chain_pays gap (fun name _ => free name) block.next
  unfold script
  split
  · next op _ =>
    cases op with
    | whenFlagClicked | startAsClone =>
      exact .bind body fun _ => .pure (by simp [scriptLoad, Script.marks, Script.body])
    | whenBroadcastReceived =>
      exact .after fun _ => .bind body fun _ => .pure (by simp [scriptLoad, Script.marks, Script.body])
    | defineProcedure => exact procedure_pays gap free scope block
    | whenThisSpriteClicked | whenStageClicked | whenKeyPressed | whenBackdropSwitchesTo | whenGreaterThan =>
      exact .after fun _ => .pure (by simp [scriptLoad])
  · exact .after fun _ => .pure (by simp [scriptLoad])

omit gap free in
theorem load_filterMap (found : List (Option Script)) :
    load weight ((found.filterMap id).flatMap Script.marks) = (found.map (scriptLoad weight)).sum := by
  induction found with
  | nil => rfl
  | cons first found ih => cases first <;> simpa [scriptLoad] using ih

theorem scripts_pays (t : Target) :
    (scripts t).Pays 0 fun found => load weight (found.flatMap Script.marks) := by
  refine .after fun procedures => ?_
  refine .bind (.forAll fun block _ => script_pays gap free _ block) fun found => .pure ?_
  rw [load_filterMap, Nat.zero_add]

end

theorem descriptor_scripts (t : Target) (found : List Script) : (descriptor t found).scripts = found := by
  unfold descriptor
  split <;> rfl

/-- Counts gaps. -/
def gapWeight : Mark → Nat
  | .gap => 1
  | .argument _ => 0

theorem load_gapWeight (marks : List Mark) : load gapWeight marks = marks.count .gap := by
  induction marks with
  | nil => rfl
  | cons mark marks ih =>
    rw [← List.singleton_append, load_append, ih, load_singleton, List.singleton_append, List.count_cons]
    cases mark <;> simp [gapWeight, Nat.add_comm]

/-- Every gap in the scripts of a target is paid for by a warning of its own. -/
theorem gaps_le_warnings (t : Target) :
    (target t).Yields fun d =>
      (d.scripts.flatMap Script.marks).count .gap ≤ (target t).raised.count .warning := by
  have total : (target t).Pays 0 fun d => load gapWeight (d.scripts.flatMap Script.marks) := by
    have pays : (scripts t).Pays 0 fun found => load gapWeight (found.flatMap Script.marks) :=
      scripts_pays (Nat.le_refl 1) (fun _ => rfl) t
    refine .bind pays fun found => .pure ?_
    rw [descriptor_scripts, Nat.zero_add]
  intro d compiled
  have paid := total d compiled
  simpa only [load_gapWeight, Nat.zero_add] using paid

/-! ## Arguments -/

/-- Weighs the arguments that are not in scope. -/
def strangerWeight (scope : Scope) (heavy : Nat) : Mark → Nat
  | .gap => 0
  | .argument name => if scope.hasArgument name then 0 else heavy

/-- Marks weigh as much as each of them. -/
theorem weight_le_load {weight : Mark → Nat} {mark : Mark} {marks : List Mark} (mem : mark ∈ marks) :
    weight mark ≤ load weight marks := by
  induction marks with
  | nil => cases mem
  | cons first marks ih =>
    rw [← List.singleton_append, load_append, load_singleton]
    rcases List.mem_cons.1 mem with rfl | mem
    · omega
    · have later := ih mem
      omega

/-- A chain reads only arguments of the procedure that it belongs to. -/
theorem chain_arguments (scope : Scope) (start : Option BlockId) :
    (chain scope start).Yields fun body =>
      ∀ name, .argument name ∈ Statement.chainMarks body → scope.hasArgument name = true := by
  intro body done name read
  by_contra outside
  -- An argument from elsewhere would weigh more than all the warnings can pay for.
  let weight := strangerWeight scope ((chain scope start).raised.count .warning + 1)
  have pays : (chain scope start).Pays 0 fun body => load weight (Statement.chainMarks body) :=
    chain_pays (Nat.zero_le 1) (fun name known => if_pos known) start
  have paid : load weight (Statement.chainMarks body) ≤ 0 + _ := pays body done
  have heavy : weight (.argument name) = (chain scope start).raised.count .warning + 1 := if_neg outside
  have part : weight (.argument name) ≤ load weight (Statement.chainMarks body) := weight_le_load read
  omega

/-! ## Scripts and their scopes -/

/-- The script is made of a chain that was compiled in a scope with the signature of the script. -/
def IsScoped (scope : Scope) (script : Script) : Prop :=
  ∃ start, (chain { scope with signature := script.signature? } start).result = .ok script.body

/-- A procedure is compiled in the scope with its own signature. -/
theorem procedure_scoped (scope : Scope) (block : Block) :
    (procedure chain scope block).Yields fun found => ∀ script, found = some script → IsScoped scope script := by
  refine .after fun signature => ?_
  have last : (do return some (.procedure signature (← chain { scope with signature } block.next)) :
      Outcome (Option Script)).Yields fun found => ∀ script, found = some script → IsScoped scope script := by
    intro found done
    obtain ⟨body, compiled, kept⟩ := bind_eq_ok.1 done
    cases kept
    rintro _ ⟨⟩
    exact ⟨block.next, compiled⟩
  dsimp only
  split
  · exact .after fun _ => last
  · exact last

/-- All other scripts are compiled in the scope without one. -/
theorem script_scoped (scope : Scope) (outside : scope.signature = none) (block : Block) :
    (script chain scope block).Yields fun found => ∀ script, found = some script → IsScoped scope script := by
  have body : (chain scope block.next).Yields fun body =>
      ∀ script : Script, script.signature? = none → script.body = body → IsScoped scope script := by
    rintro _ done script none rfl
    refine ⟨block.next, ?_⟩
    rwa [none, ← outside]
  unfold script
  split
  · next op _ =>
    cases op with
    | whenFlagClicked | startAsClone =>
      refine body.bind fun body made => .pure ?_
      rintro _ ⟨⟩
      exact made _ rfl rfl
    | whenBroadcastReceived =>
      refine .after fun _ => body.bind fun body made => .pure ?_
      rintro _ ⟨⟩
      exact made _ rfl rfl
    | defineProcedure => exact procedure_scoped scope block
    | whenThisSpriteClicked | whenStageClicked | whenKeyPressed | whenBackdropSwitchesTo | whenGreaterThan =>
      exact .after fun _ => .pure (by simp)
  · exact .after fun _ => .pure (by simp)

/-- The scripts of a target are compiled each in the scope of its own signature, with the procedures that the
target defines. -/
theorem target_scoped (t : Target) :
    (target t).Yields fun d => ∃ procedures, definedProcedures t.graph t.graph.topLevel = .ok procedures ∧
      ∀ script ∈ d.scripts, IsScoped { target := t, procedures } script := by
  have all : (scripts t).Yields fun found =>
      ∃ procedures, definedProcedures t.graph t.graph.topLevel = .ok procedures ∧
        ∀ script ∈ found, IsScoped { target := t, procedures } script := by
    refine (Yields.attempt _).bind fun procedures known => ?_
    refine (Yields.forAll fun block _ => script_scoped _ rfl block).bind fun found each => .pure ?_
    refine ⟨procedures, known, fun script mem => ?_⟩
    obtain ⟨_, isIn, rfl⟩ := List.mem_filterMap.1 mem
    exact each _ isIn script rfl
  refine all.bind fun found each => .pure ?_
  rwa [descriptor_scripts]

/-- What is compiled in a scope reads only the arguments of its signature, which is that of the script. -/
theorem IsScoped.readsOwn {scope : Scope} {script : Script} (made : IsScoped scope script) : script.ReadsOwn := by
  obtain ⟨start, done⟩ := made
  intro name read
  have known := chain_arguments _ start script.body done name read
  unfold Scope.hasArgument at known
  split at known
  · next signature own => exact ⟨signature, own, by simpa using known⟩
  · cases known

end Compile

end ScratchPage
