import ScratchPage.Proofs.Compile.Linkage
import ScratchPage.Proofs.Compile.Marks
import ScratchPage.Proofs.Lexical.Arguments

/-!
# Arguments of procedures

The value of an argument reaches the place where it is read through two arrays: the call gives the
values in the order of the identifiers of the arguments, the procedure looks the name up in the array
of the names. In the code of a target every such look-up lies in the procedure that has the argument, a
report of another argument has a neutral value instead, and for a procedure whose names are distinct the
look-up of a name finds the value of the slot that belongs to it (`target_binds_arguments`).
-/

namespace ScratchPage
set_option autoImplicit false

/-- What a reporter of arguments writes outside the procedure that has the argument. -/
def Reporter.neutralText? : Reporter → Option String
  | .argumentStringNumber => some "0"
  | .argumentBoolean => some "false"
  | _ => none

namespace Compile

open Outcome

/-! ## Reports of arguments -/

theorem text_zero : (Operand.number 0).code.text = "0" := by
  decide +kernel

/-- An argument becomes a reading of the argument in the procedures that have it and a neutral operand
elsewhere. -/
theorem argument_yields (scope : Scope) (owner : Block) (neutral : Operand) :
    (argument scope owner neutral : Outcome Operand).Yields fun operand =>
      ∃ field, owner.field? "VALUE" = some field ∧
        operand = if scope.hasArgument field.value then .argument field.value else neutral := by
  intro operand done
  obtain ⟨field, held, done⟩ := bind_eq_ok.1 done
  refine ⟨field, requireField_yields owner "VALUE" field held, ?_⟩
  dsimp only at done
  split_ifs at done ⊢ with known
  · cases done
    rfl
  · cases done
    rfl

/-- A report of an argument reads it where the procedure has it, and is neutral everywhere else. -/
theorem value_of_argument {scope : Scope} {active : List BlockId} {id : BlockId} {block : Block} {op : Reporter}
    {neutral : String} {operand : Operand} (found : scope.target.graph.find? id = some block)
    (isReporter : block.opcode = .reporter op) (isArgument : op.neutralText? = some neutral)
    (done : (value scope active id).result = .ok operand) :
    ∃ field, block.field? "VALUE" = some field ∧
      if scope.hasArgument field.value then operand = .argument field.value else operand.code.text = neutral := by
  rw [value_of_find? found] at done
  split at done
  · cases done
  · simp only [valueOf, isReporter] at done
    unfold Reporter.neutralText? at isArgument
    split at isArgument
    · cases isArgument
      obtain ⟨field, held, rfl⟩ := argument_yields scope block _ _ done
      refine ⟨field, held, ?_⟩
      split
      · rfl
      · exact text_zero
    · cases isArgument
      obtain ⟨field, held, rfl⟩ := argument_yields scope block _ _ done
      refine ⟨field, held, ?_⟩
      split <;> rfl
    · cases isArgument

/-! ## Calls -/

/-- The text of a statement calls a procedure with these elements in the array of the values. -/
def CallsWith (st : Statement) (entries : List (List Lexical.Token)) : Prop :=
  ∃ ahead inner behind,
    (∀ level, Lexical.tokens ((Writer.start level).writeAll st.lines).text =
      some (ahead ++ Lexical.argumentList inner ++ behind)) ∧
    Lexical.elementsOf inner = some entries

theorem input_of_absent {sub : BlockId → Outcome Operand} {owner : Block} {slot : String}
    (absent : owner.input? slot = none) {coercion : Coercion} :
    (input sub owner slot coercion).Yields fun operand => operand = .null := by
  unfold input
  rw [absent]
  exact .after fun _ => .pure rfl

/-- A call has one element for each identifier of its signature, and the element is the text of the slot of that
name, or null where the block has no such slot. -/
theorem callsWith_of_call {scope : Scope} {t : Target} (serves : scope.Serves t) {active : List BlockId}
    {id : BlockId} {block : Block} (found : t.graph.find? id = some block)
    (isCall : block.opcode = .command .callProcedure) {signature : Signature}
    (carried : block.signature = some signature) (defined : t.Defines signature.code) {st : Statement}
    (done : (statement scope active id).result = .ok st) :
    ∃ entries, CallsWith st entries ∧ entries.length = signature.argumentIds.length ∧
      ∀ (k : Nat) (slot : String), signature.argumentIds[k]? = some slot →
        ∃ operand, (input (value scope (id :: active)) block slot .any).result = .ok operand ∧
          entries[k]? = Lexical.tokens operand.code.text ∧
          (block.input? slot = none → operand.code.text = "null") := by
  have known := (mem_procedures_iff serves).2 defined
  obtain ⟨rfl, -⟩ := serves
  rw [statement_of_find? found] at done
  split at done
  · cases done
  · simp only [statementOf, isCall, command, call, carried] at done
    rw [if_pos (by simpa using known)] at done
    obtain ⟨act, called, last⟩ := bind_eq_ok.1 done
    obtain ⟨arguments, each, last'⟩ := bind_eq_ok.1 called
    cases last'
    cases last
    obtain ⟨length, slots⟩ := getElem?_of_forAll each
    obtain ⟨ahead, inner, behind, read, elements⟩ := Lexical.tokens_call signature.code arguments
    refine ⟨_, ⟨ahead, inner, behind, read, elements⟩, by simpa using length, fun k slot held => ?_⟩
    obtain ⟨operand, given, compiled⟩ := slots k slot held
    refine ⟨operand, compiled, ?_, fun absent => ?_⟩
    · rw [List.getElem?_map, given, Lexical.tokens_operand]
      rfl
    · rw [input_of_absent absent operand compiled]
      rfl

/-! ## Definitions -/

/-- A procedure stands in the code, with closed brackets in its statements and the texts of both arrays. -/
def IsEmitted (all : List Lexical.Token) (signature : Signature) (names : List String) : Prop :=
  ∃ code body ids listed, Lexical.methodTokens code body ids listed <:+: all ∧
    Lexical.feed Lexical.nest [] body = some [] ∧ Lexical.stringValue code = some signature.code ∧
    Lexical.textsOf ids = some signature.argumentIds ∧ Lexical.textsOf listed = some names

/-- Each definition among the top-level blocks has its script. -/
theorem exists_script_of_definition {t : Target} {d : Descriptor} (compiled : (target t).result = .ok d)
    {block : Block} (top : block ∈ t.graph.topLevel) (isDefinition : block.opcode = .hat .defineProcedure)
    {signature : Signature} (defined : definedSignature t.graph block = .ok signature) :
    ∃ body, Script.procedure signature body ∈ d.scripts := by
  obtain ⟨found, done, last⟩ := bind_eq_ok.1 compiled
  cases last
  rw [descriptor_scripts]
  obtain ⟨procedures, -, done⟩ := bind_eq_ok.1 done
  obtain ⟨all, each, kept⟩ := bind_eq_ok.1 done
  obtain rfl : all.filterMap id = found := by simpa using kept
  obtain ⟨result, isIn, made⟩ := exists_of_forAll each top
  have made : (procedure chain { target := t, procedures } block).result = .ok result := by
    rwa [Compile.script, isDefinition] at made
  obtain ⟨other, body, defined', rfl, -⟩ := procedure_yields _ block result made
  obtain rfl : signature = other := Except.ok.inj (defined.symm.trans defined')
  exact ⟨body, List.mem_filterMap.2 ⟨_, isIn, rfl⟩⟩

/-- The script of a procedure stands in the tokens of the code, with its argument names. -/
theorem isEmitted_of_script {d : Descriptor} {all : List Lexical.Token} (read : Lexical.tokens d.code = some all)
    {signature : Signature} {body : List Statement} (mem : Script.procedure signature body ∈ d.scripts) :
    IsEmitted all signature signature.argumentNames := by
  rw [Lexical.tokens_descriptor, Option.some.injEq] at read
  subst read
  refine ⟨_, _, _, _, ?_, Lexical.nest_chain body, Lexical.stringValue_quoted signature.code,
    Lexical.textsOf_textElements signature.argumentIds, Lexical.textsOf_textElements signature.argumentNames⟩
  rw [← Lexical.tokens_procedure]
  obtain ⟨before, after, split⟩ := List.append_of_mem mem
  refine ⟨d.headLines.flatMap Line.tokens ++ before.flatMap Lexical.scriptTokens,
    after.flatMap Lexical.scriptTokens ++ d.tailLines.flatMap Line.tokens, ?_⟩
  simp [split, Lexical.scriptTokens]

theorem defines_of_signature {t : Target} {block : Block} (top : block ∈ t.graph.topLevel)
    (isDefinition : block.opcode = .hat .defineProcedure) {signature : Signature}
    (defined : definedSignature t.graph block = .ok signature) : t.Defines signature.code := by
  obtain ⟨mem, isTop⟩ := Graph.mem_topLevel_iff.1 top
  obtain ⟨input, id, prototype, slot, isBlock, found, carried⟩ := definedSignature_eq_ok.1 defined
  exact ⟨block, mem, isTop, isDefinition, input, id, prototype, signature, slot, isBlock, found, carried, rfl⟩

/-! ## Targets -/

/-- The arguments of procedures are bound. Every reading of an argument in the code of a target lies in the
statements of a procedure whose array of names has its name. A script is compiled in the scope of its own
signature, and there a report of an argument that the signature does not have is `0` or `false`. For a definition
with distinct names and one identifier for each, and for a call of that procedure with these identifiers, the
array of the values has one element for each identifier: the element at a position is the text of the slot that
the identifier there names, and the name there is found at that position. -/
theorem target_binds_arguments {t : Target} {d : Descriptor} (compiled : (target t).result = .ok d) :
    ∃ all, Lexical.tokens d.code = some all ∧ Lexical.ReadsInMethods all ∧
      (∃ procedures, definedProcedures t.graph t.graph.topLevel = .ok procedures ∧
        ∀ script ∈ d.scripts, IsScoped { target := t, procedures } script) ∧
      (∀ (scope : Scope) (active : List BlockId) (id : BlockId) (block : Block) (op : Reporter) (neutral : String)
        (operand : Operand), scope.target = t → t.graph.find? id = some block → block.opcode = .reporter op →
        op.neutralText? = some neutral → (value scope active id).result = .ok operand →
        ∃ field, block.field? "VALUE" = some field ∧
          if scope.hasArgument field.value then operand = .argument field.value
          else operand.code.text = neutral) ∧
      ∀ (definition : Block) (signature : Signature), definition ∈ t.graph.topLevel →
        definition.opcode = .hat .defineProcedure → definedSignature t.graph definition = .ok signature →
        signature.argumentNames.Nodup → signature.argumentIds.length = signature.argumentNames.length →
        ∃ names, IsEmitted all signature names ∧
          ∀ (scope : Scope) (active : List BlockId) (id : BlockId) (block : Block) (own : Signature)
            (st : Statement), scope.Serves t → t.graph.find? id = some block →
            block.opcode = .command .callProcedure → block.signature = some own → own.code = signature.code →
            own.argumentIds = signature.argumentIds → (statement scope active id).result = .ok st →
            ∃ entries, CallsWith st entries ∧ entries.length = signature.argumentIds.length ∧
              ∀ k < signature.argumentIds.length, ∃ slot name operand,
                signature.argumentIds[k]? = some slot ∧ signature.argumentNames[k]? = some name ∧
                names[k]? = some name ∧ names.idxOf name = k ∧
                (input (value scope (id :: active)) block slot .any).result = .ok operand ∧
                entries[k]? = Lexical.tokens operand.code.text ∧
                (block.input? slot = none → operand.code.text = "null") := by
  obtain ⟨procedures, known, made⟩ := target_scoped t d compiled
  have read := Lexical.tokens_descriptor d
  refine ⟨_, read, Lexical.readsInMethods fun script mem => (made script mem).readsOwn,
    ⟨procedures, known, made⟩, ?_, ?_⟩
  · rintro scope active id block op neutral operand rfl found isReporter isArgument done
    exact value_of_argument found isReporter isArgument done
  · intro definition signature top isDefinition defined distinct paired
    obtain ⟨body, mem⟩ := exists_script_of_definition compiled top isDefinition defined
    refine ⟨signature.argumentNames, isEmitted_of_script read mem, ?_⟩
    intro scope active id block own st serves found isCall carried sameCode sameIds done
    have calls : t.Defines own.code := by
      rw [sameCode]
      exact defines_of_signature top isDefinition defined
    obtain ⟨entries, given, length, each⟩ := callsWith_of_call serves found isCall carried calls done
    rw [sameIds] at length each
    refine ⟨entries, given, length, fun k inside => ?_⟩
    have named : k < signature.argumentNames.length := by omega
    have slot := List.getElem?_eq_getElem inside
    have name := List.getElem?_eq_getElem named
    obtain ⟨operand, made⟩ := each k _ slot
    exact ⟨_, _, operand, slot, name, name, distinct.idxOf_getElem k named, made⟩

/-- The signature of a procedure with two arguments, one of which has a name that strings and data write
differently. -/
def pace : Signature := ⟨"pace %s %b", ["a", "b"], ["steps\t<", "far"], false⟩

/-- A report of an argument. -/
def argumentBlock (id name : String) (op : Reporter) : Block :=
  { linkedBlock id (.reporter op) [] none with fields := [("VALUE", ⟨name, none⟩)] }

/-- A call that gives one of two arguments. -/
def pacingCall : Block :=
  { linkedBlock "again" (.command .callProcedure) [] none with
    inputs := [("a", ⟨.literal .string "7", none⟩)], signature := some pace }

/-- A procedure that moves by one of its arguments and calls itself, and a report of an argument that it does not
have. -/
def pacing : Target :=
  spriteOf
    [linkedBlock "hat" (.hat .defineProcedure) [("custom_block", "prototype")] (some "move"),
     { linkedBlock "prototype" (.unknown "procedures_prototype") [] none with signature := some pace },
     linkedBlock "move" (.command .moveSteps) [("STEPS", "steps")] (some "again"),
     argumentBlock "steps" "steps\t<" .argumentStringNumber, pacingCall,
     argumentBlock "stray" "other" .argumentBoolean]

/-- A procedure that moves by an argument with a special character in its name and calls itself with one of two
arguments. -/
theorem target_binds_arguments_pacing :
    ∃ d all st entries operand, (target pacing).result = .ok d ∧ Lexical.tokens d.code = some all ∧
      Lexical.argumentRead "steps\t\\x3C".toList <:+: all ∧ Lexical.ReadsInMethods all ∧
      (value ⟨pacing, [pace.code], some pace⟩ [] ⟨"stray"⟩).result = .ok operand ∧ operand.code.text = "false" ∧
      pace.argumentNames.Nodup ∧ (statement ⟨pacing, [pace.code], some pace⟩ [] ⟨"again"⟩).result = .ok st ∧
      CallsWith st entries ∧ entries.length = 2 ∧ entries[0]? = Lexical.tokens "\"7\"" ∧
      entries[1]? = Lexical.tokens "null" := by
  let scope : Scope := ⟨pacing, [pace.code], some pace⟩
  obtain ⟨d, compiled⟩ : ∃ d, (target pacing).result = .ok d := exists_of_toBool (by decide +kernel)
  obtain ⟨st, called⟩ : ∃ st, (statement scope [] ⟨"again"⟩).result = .ok st :=
    exists_of_toBool (by decide +kernel)
  obtain ⟨operand, reported⟩ : ∃ operand, (value scope [] ⟨"stray"⟩).result = .ok operand :=
    exists_of_toBool (by decide +kernel)
  have reads : ((target pacing).result.toOption.any fun d => decide
      (Lexical.argumentRead "steps\t\\x3C".toList <:+: d.scripts.flatMap Lexical.scriptTokens)) = true := by
    decide +kernel
  rw [compiled, Except.toOption, Option.any_some, decide_eq_true_eq] at reads
  have serves : scope.Serves pacing := ⟨rfl, rfl⟩
  have distinct : pace.argumentNames.Nodup := by decide
  obtain ⟨all, read, inMethods, -, reports, binds⟩ := target_binds_arguments compiled
  have text : operand.code.text = "false" := by
    obtain ⟨field, held, outside⟩ :=
      reports scope [] _ (argumentBlock "stray" "other" .argumentBoolean) _ _ operand rfl rfl rfl rfl reported
    cases held
    exact outside
  obtain ⟨names, -, calls⟩ := binds _ pace (List.mem_cons_self) rfl rfl distinct rfl
  obtain ⟨entries, given, length, each⟩ := calls scope [] _ pacingCall pace st serves rfl rfl rfl rfl rfl called
  have first : entries[0]? = Lexical.tokens "\"7\"" := by
    obtain ⟨slot, name, own, isSlot, -, -, -, made, entry, -⟩ := each 0 (by decide)
    cases isSlot
    cases made
    exact entry
  have second : entries[1]? = Lexical.tokens "null" := by
    obtain ⟨slot, name, own, isSlot, -, -, -, -, entry, absent⟩ := each 1 (by decide)
    cases isSlot
    rw [entry, absent rfl]
  refine ⟨d, all, st, entries, operand, compiled, read, ?_, inMethods, reported, text, distinct, called, given, length,
    first, second⟩
  rw [Lexical.tokens_descriptor, Option.some.injEq] at read
  rw [← read, List.append_assoc]
  exact reads.trans ⟨_, _, List.append_assoc _ _ _⟩

end Compile

end ScratchPage
