import ScratchPage.Proofs.Lexical.Arrays
import ScratchPage.Proofs.Lexical.Procedures

/-!
# Arguments in code

A procedure is put into the table as a function of the values that it is called with and of the names
of its arguments; an argument is read by looking its name up among them. The word for the values stands
in two places only: as the parameter of such a function and at the beginning of such a reading. So every
reading in the tokens of a target whose scripts read arguments of their own only lies in the statements
of a procedure that has an argument of that name (`readsInMethods`).

A call gives the values as an array with one element for each argument (`tokens_call`).
-/

namespace ScratchPage.Lexical
set_option autoImplicit false

/-! ## Texts around arguments -/

/-- The names of the arguments, as a procedure is called with them. -/
def mappingWord : List Char := ['a', 'r', 'g', 's', 'A', 'r', 'g', 'M', 'a', 'p', 'p', 'i', 'n', 'g']

/-- The tokens after the word for the values when an argument is read. -/
def argumentTail (content : List Char) : List Token :=
  [.opening .square, .word mappingWord, .sign ['.'], .word ['i', 'n', 'd', 'e', 'x', 'O', 'f'], .opening .round,
   .string content, .closing .round, .closing .square]

/-- The tokens with which the argument of a name is read. -/
def argumentRead (content : List Char) : List Token := .word argumentsWord :: argumentTail content

/-- The tokens before the statements of a procedure, after the word for the values. -/
def methodParameters : List Token :=
  [.sign [','], .word mappingWord, .closing .round, .opening .curly]

/-- The tokens before the statements of a procedure, up to the word for the values. -/
def methodStart (code : List Char) : List Token :=
  tableCall ['s', 'e', 't'] code ++
    [.sign [','], .opening .curly, .word ['m', 'e', 't', 'h', 'o', 'd'], .sign [':'], .opening .round,
     .word ['a', 's', 'y', 'n', 'c'], .word ['f', 'u', 'n', 'c', 't', 'i', 'o', 'n'], .opening .round]

/-- The tokens before the statements of a procedure. -/
def methodHead (code : List Char) : List Token :=
  methodStart code ++ .word argumentsWord :: methodParameters

/-- The tokens after the statements of a procedure, with what stands in the arrays of the identifiers and of the
names of its arguments. -/
def methodTail (ids names : List Token) : List Token :=
  [.closing .curly, .closing .round, .sign ['.'], .word ['b', 'i', 'n', 'd'], .opening .round,
   .word ['t', 'h', 'i', 's'], .closing .round, .sign [','],
   .word ['a', 'r', 'g', 'u', 'm', 'e', 'n', 't', 'i', 'd', 's'], .sign [':'], .opening .square] ++ ids ++
  [.closing .square, .sign [','],
   .word ['a', 'r', 'g', 'u', 'm', 'e', 'n', 't', 'n', 'a', 'm', 'e', 's'], .sign [':'], .opening .square] ++
    names ++
  [.closing .square, .sign [','], .closing .curly, .closing .round, .sign [';']]

/-- A procedure with its statements. -/
def methodTokens (code : List Char) (body ids names : List Token) : List Token :=
  methodHead code ++ body ++ methodTail ids names

/-- What stands between other tokens is a reading of an argument in the statements of a procedure that has an
argument of that name. -/
def InMethod (before : List Token) (content : List Char) (after : List Token) : Prop :=
  ∃ ahead code inner rest ids names behind,
    before = ahead ++ methodHead code ++ inner ∧ after = rest ++ methodTail ids names ++ behind ∧
    feed nest [] (inner ++ argumentRead content ++ rest) = some [] ∧
    ∃ idTexts nameTexts name, textsOf ids = some idTexts ∧ textsOf names = some nameTexts ∧
      stringValue content = some name ∧ name ∈ nameTexts

/-- Every reading of an argument lies in the statements of a procedure that has it. -/
def ReadsInMethods (all : List Token) : Prop :=
  ∀ before content after, all = before ++ argumentRead content ++ after → InMethod before content after

theorem tokens_argument (name : String) :
    (Operand.argument name).code.tokens = argumentRead (name.toList.flatMap Text.escapeChar) := by
  simp only [Operand.code, Code.quoted, Code.tokens_append, Code.tokens_singleton, tokens_quoted]
  repeat rw [Fragment.tokens_fixed]
  rfl

/-- A procedure is a method, with its arrays of argument ids and names, whatever its statements are. -/
theorem tokens_procedure (signature : Signature) (body : List Statement) :
    (Script.procedure signature body).lines.flatMap Line.tokens =
      methodTokens (signature.code.toList.flatMap Text.escapeChar)
        ((Statement.chainLines body).flatMap Line.tokens) (textElements signature.argumentIds)
        (textElements signature.argumentNames) := by
  have head : (storeLine signature.code).tokens ++
      (Line.opening "method: (async function(argsMethodArgs, argsArgMapping) \x7b").tokens =
      methodHead (signature.code.toList.flatMap Text.escapeChar) := by
    rw [tokens_storeLine, Line.tokens, Code.tokens_singleton, Fragment.tokens_fixed]
    rfl
  have tail : [Line.closing "\x7d).bind(this),",
      .plain ("argumentids: " ++ Script.textArray signature.argumentIds ++ ","),
      .plain ("argumentnames: " ++ Script.textArray signature.argumentNames ++ ","),
      .closing "\x7d);"].flatMap Line.tokens =
      methodTail (textElements signature.argumentIds) (textElements signature.argumentNames) := by
    simp only [List.flatMap_cons, List.flatMap_nil, Line.tokens, Code.tokens_append, Code.tokens_singleton,
      tokens_textArray]
    repeat rw [Fragment.tokens_fixed]
    simp only [methodTail, List.append_assoc, List.cons_append, List.nil_append]
    rfl
  rw [methodTokens, ← head, ← tail]
  simp only [Script.lines, List.flatMap_append, List.flatMap_cons, List.flatMap_nil, List.append_nil, storeLine]

/-! ## The word for the values -/

/-- In the code the word for the values is at the beginning of readings of these arguments only. -/
def ReadsOnly (known : List String) (code : Code) : Prop :=
  ∀ before after, code.tokens = before ++ .word argumentsWord :: after →
    ∃ name ∈ known, argumentTail (name.toList.flatMap Text.escapeChar) <+: after

namespace ReadsOnly

variable {known : List String}

theorem append {a b : Code} (first : ReadsOnly known a) (second : ReadsOnly known b) : ReadsOnly known (a ++ b) := by
  intro before after split
  rw [Code.tokens_append] at split
  obtain ⟨rest, left, rfl⟩ | ⟨ahead, right, -⟩ := split_append split
  · obtain ⟨name, mem, reads⟩ := first before rest left
    exact ⟨name, mem, reads.trans (List.prefix_append rest b.tokens)⟩
  · exact second ahead after right

theorem of_lacks {code : Code} (lacks : Lacks argumentsWord code) : ReadsOnly known code := by
  intro before after split
  exact absurd (by simp [split]) lacks.absent

/-- An argument that is known may be read. -/
theorem argument {name : String} (mem : name ∈ known) : ReadsOnly known (Operand.argument name).code := by
  intro before after split
  rw [tokens_argument] at split
  cases before with
  | nil =>
    obtain ⟨-, rfl⟩ := List.cons.inj split
    exact ⟨name, mem, List.prefix_rfl⟩
  | cons token before =>
    obtain ⟨-, split⟩ := List.cons.inj split
    have once : .word argumentsWord ∈ argumentTail (name.toList.flatMap Text.escapeChar) := by simp [split]
    simp [argumentTail, argumentsWord, mappingWord] at once

end ReadsOnly

theorem texture_lacksArguments : Texture (Lacks argumentsWord) := texture_lacks (by simp [markedWords])

theorem lacksArguments_chainTexts : ∀ text ∈ chainTexts, Lacks argumentsWord [.fixed text] := by
  simp only [chainTexts, screenRefresh, List.forall_mem_cons]
  exact ⟨.fixed rfl, .fixed rfl, .fixed rfl, .fixed rfl, by simp⟩

theorem lacksArguments_tableTexts : ∀ text ∈ tableTexts, Lacks argumentsWord [.fixed text] := by
  simp only [tableTexts, List.forall_mem_cons]
  exact ⟨.fixed rfl, .fixed rfl, by simp⟩

/-- Code that lacks the word reads nothing, so only the reading of an argument has to be added. -/
theorem texture_readsOnly (known : List String) : Texture (ReadsOnly known) where
  append := .append
  fixed ordinary := .of_lacks (texture_lacksArguments.fixed ordinary)
  sign op := .of_lacks (texture_lacksArguments.sign op)
  quoted text := .of_lacks (texture_lacksArguments.quoted text)
  number value := .of_lacks (texture_lacksArguments.number value)
  integer value := .of_lacks (texture_lacksArguments.integer value)
  data value := .of_lacks (texture_lacksArguments.data value)
  comment text := .of_lacks (texture_lacksArguments.comment text)

/-- Statements name the values only to read these arguments. -/
theorem readsOnly_chain {known : List String} {body : List Statement}
    (own : ∀ name, .argument name ∈ Statement.chainMarks body → name ∈ known) :
    AllHold (Line.Holds (ReadsOnly known)) (Statement.chainLines body) :=
  have texture := texture_readsOnly known
  texture.weave.chain (fun text mem => .of_lacks (lacksArguments_chainTexts text mem)) body
    (fun name read => .argument (own name read))
    fun code _ => (texture.tableLines (fun text mem => .of_lacks (lacksArguments_tableTexts text mem)) code).1

/-- Behind the word stands the reading of a known name, wherever the tokens are split. -/
theorem readsOnly_lines {known : List String} {lines : List Line} (all : AllHold (Line.Holds (ReadsOnly known)) lines)
    {before after : List Token} (split : lines.flatMap Line.tokens = before ++ .word argumentsWord :: after) :
    ∃ name ∈ known, argumentTail (name.toList.flatMap Text.escapeChar) <+: after := by
  induction lines generalizing before after with
  | nil => simp at split
  | cons line lines ih =>
    rw [allHold_cons] at all
    obtain ⟨rest, left, rfl⟩ | ⟨ahead, right, -⟩ := split_append split
    · have own : ∃ name ∈ known, argumentTail (name.toList.flatMap Text.escapeChar) <+: rest := by
        cases line with
        | plain code | opening code | closing code | switching code => exact all.1 before rest left
        | remark text =>
          have word : .word argumentsWord ∈ (Line.remark text).tokens := by simp [left]
          simp [Line.tokens] at word
      obtain ⟨name, mem, reads⟩ := own
      exact ⟨name, mem, reads.trans (List.prefix_append rest _)⟩
    · exact ih all.2 right

theorem InMethod.append {before after : List Token} {content : List Char} (inside : InMethod before content after)
    (left right : List Token) : InMethod (left ++ before) content (after ++ right) := by
  obtain ⟨ahead, code, inner, rest, ids, names, behind, rfl, rfl, named⟩ := inside
  exact ⟨left ++ ahead, code, inner, rest, ids, names, behind ++ right, by simp, by simp, named⟩

/-- The word for the values is the parameter of a procedure or begins a reading in the statements of one. -/
def IsPlaced (before after : List Token) : Prop :=
  after.head? = some (.sign [',']) ∨
    ∃ content rest, after = argumentTail content ++ rest ∧ InMethod before content rest

theorem IsPlaced.append {before after : List Token} (placed : IsPlaced before after) (left right : List Token) :
    IsPlaced (left ++ before) (after ++ right) := by
  obtain comma | ⟨content, rest, rfl, inside⟩ := placed
  · exact .inl (by simp [List.head?_append, comma])
  · exact .inr ⟨content, rest ++ right, by simp, inside.append left right⟩

/-- Wherever the word for the values stands, it is placed. -/
def AllPlaced (ts : List Token) : Prop :=
  ∀ before after, ts = before ++ .word argumentsWord :: after → IsPlaced before after

namespace AllPlaced

theorem of_not_mem {ts : List Token} (absent : .word argumentsWord ∉ ts) : AllPlaced ts := by
  rintro before after rfl
  simp at absent

theorem append {a b : List Token} (first : AllPlaced a) (second : AllPlaced b) : AllPlaced (a ++ b) := by
  intro before after split
  obtain ⟨rest, left, rfl⟩ | ⟨ahead, right, rfl⟩ := split_append split
  · simpa using (first before rest left).append [] b
  · simpa using (second ahead after right).append a []

theorem flatMap {α : Type} {f : α → List Token} {items : List α} (each : ∀ a ∈ items, AllPlaced (f a)) :
    AllPlaced (items.flatMap f) := by
  induction items with
  | nil => exact of_not_mem (by simp)
  | cons a items ih => exact (each a (by simp)).append (ih fun b mem => each b (by simp [mem]))

end AllPlaced

/-! ## Targets -/

/-- Statements close the brackets that they open. -/
theorem nest_chain (body : List Statement) :
    feed nest [] ((Statement.chainLines body).flatMap Line.tokens) = some [] :=
  feed_nest_of_see (feed_of_passLines (passage_chain body [] true))

theorem not_mem_textElements {word : List Char} (other : word ∉ valueWords) (texts : List String) :
    .word word ∉ textElements texts := by
  intro inside
  have lacks : Lacks word (Script.textArray texts) := .of_value (valueText_data _) other
  exact lacks.absent (by simp [tokens_textArray, inside])

/-- The head of a procedure names the values once, before a comma. -/
theorem allPlaced_methodHead (code : List Char) : AllPlaced (methodHead code) := by
  intro before after split
  obtain ⟨rest, here, -⟩ | ⟨inner, there, -⟩ := split_append split
  · have word : .word argumentsWord ∈ methodStart code := by simp [here]
    simp [methodStart, tableCall, methodCall, tableName, argumentsWord] at word
  · cases inner with
    | nil =>
      obtain ⟨-, rfl⟩ := List.cons.inj there
      exact .inl rfl
    | cons token inner =>
      obtain ⟨-, there⟩ := List.cons.inj there
      have word : .word argumentsWord ∈ methodParameters := by simp [there]
      simp [methodParameters, mappingWord, argumentsWord] at word

/-- A procedure reads its arguments in its statements only. -/
theorem allPlaced_procedure {signature : Signature} {body : List Statement}
    (own : (Script.procedure signature body).ReadsOwn) :
    AllPlaced ((Script.procedure signature body).lines.flatMap Line.tokens) := by
  have known : ∀ name, .argument name ∈ Statement.chainMarks body → name ∈ signature.argumentNames := by
    intro name read
    obtain ⟨_, same, mem⟩ := own name read
    cases same
    exact mem
  have closed := nest_chain body
  have idTexts := textsOf_textElements signature.argumentIds
  have nameTexts := textsOf_textElements signature.argumentNames
  intro before after split
  rw [tokens_procedure, methodTokens, List.append_assoc] at split
  obtain ⟨rest, inHead, rfl⟩ | ⟨inner, later, rfl⟩ := split_append split
  · simpa using (allPlaced_methodHead _ before rest inHead).append [] _
  · right
    obtain ⟨rest, here, rfl⟩ | ⟨tail, there, -⟩ := split_append later
    · obtain ⟨name, mem, rest, rfl⟩ := readsOnly_lines (readsOnly_chain known) here
      rw [here] at closed
      have inside : feed nest [] (inner ++ argumentRead (name.toList.flatMap Text.escapeChar) ++ rest) = some [] := by
        simpa [argumentRead] using closed
      exact ⟨_, _, List.append_assoc _ _ _, [], _, inner, rest, _, _, [], rfl, (List.append_nil _).symm, inside,
        _, _, name, idTexts, nameTexts, stringValue_quoted name, mem⟩
    · have word : .word argumentsWord ∈
          methodTail (textElements signature.argumentIds) (textElements signature.argumentNames) := by
        simp [there]
      have other : argumentsWord ∉ valueWords := by decide
      simp only [methodTail, List.mem_append, not_mem_textElements other, or_false] at word
      exact absurd word (by decide)

theorem not_mem_of_lacks {lines : List Line} (lacks : AllHold (Line.Holds (Lacks argumentsWord)) lines) :
    .word argumentsWord ∉ lines.flatMap Line.tokens := by
  intro word
  obtain ⟨line, mem, isIn⟩ := List.mem_flatMap.1 word
  exact not_mem_of_holds (lacks line mem) isIn

/-- A script that is no procedure reads no arguments. -/
theorem allPlaced_script {script : Script} (own : script.ReadsOwn) : AllPlaced (script.lines.flatMap Line.tokens) := by
  have event (outside : script.signature? = none)
      (framed : ∀ text ∈ scriptTexts script, Lacks argumentsWord [.fixed text]) :
      AllPlaced (script.lines.flatMap Line.tokens) := by
    apply AllPlaced.of_not_mem
    apply not_mem_of_lacks
    have table := texture_lacksArguments.tableLines lacksArguments_tableTexts
    refine texture_lacksArguments.weave.script lacksArguments_chainTexts framed (fun name read => ?_)
      (fun code _ => (table code).1) fun code _ => (table code).2
    obtain ⟨signature, isProcedure, -⟩ := own name read
    simp [outside] at isProcedure
  cases script with
  | procedure signature body => exact allPlaced_procedure own
  | whenFlagClicked body | whenReceived message body | whenCloned body =>
    apply event rfl
    simp only [scriptTexts, List.forall_mem_singleton]
    exact .fixed rfl

/-- The tokens of a script. -/
def scriptTokens (script : Script) : List Token := script.lines.flatMap Line.tokens

theorem tokens_descriptor (d : Descriptor) :
    tokens d.code = some (d.headLines.flatMap Line.tokens ++ d.scripts.flatMap scriptTokens ++
      d.tailLines.flatMap Line.tokens) := by
  rw [Descriptor.code, tokens_writeAll (passage_descriptor d [] true) 0, List.flatMap_append, List.flatMap_append,
    Descriptor.scriptLines, List.flatMap_assoc]
  rfl

/-- The readings of arguments in the code of a target lie in procedures that have them. -/
theorem readsInMethods {d : Descriptor} (own : ∀ script ∈ d.scripts, script.ReadsOwn) :
    ReadsInMethods (d.headLines.flatMap Line.tokens ++ d.scripts.flatMap scriptTokens ++
      d.tailLines.flatMap Line.tokens) := by
  have head : AllPlaced (d.headLines.flatMap Line.tokens) :=
    .of_not_mem (not_mem_of_lacks (texture_lacksArguments.weave.headLines d))
  have tail : AllPlaced (d.tailLines.flatMap Line.tokens) :=
    .of_not_mem (not_mem_of_lacks (texture_lacksArguments.weave.tailLines d))
  have scripts : AllPlaced (d.scripts.flatMap scriptTokens) :=
    .flatMap fun script mem => allPlaced_script (own script mem)
  intro before content after split
  have reading : before ++ argumentRead content ++ after =
      before ++ .word argumentsWord :: (argumentTail content ++ after) := by
    simp [argumentRead]
  obtain comma | ⟨other, rest, same, inside⟩ :=
    ((head.append scripts).append tail) before _ (split.trans reading)
  · simp [argumentTail] at comma
  · simp only [argumentTail, List.cons_append, List.nil_append, List.cons.injEq, Token.string.injEq,
      true_and] at same
    obtain ⟨rfl, rfl⟩ := same
    exact inside

/-! ## Calls -/

/-- The array of the values that a procedure is called with. -/
def argumentList (inner : List Token) : List Token :=
  [.word ['c', 'o', 'n', 's', 't'], .word ['m', 'e', 't', 'h', 'o', 'd', 'A', 'r', 'g', 's'], .sign ['='],
   .opening .square] ++ inner ++ [.closing .square, .sign [';']]

theorem tokens_operand (operand : Operand) : tokens operand.code.text = some operand.code.tokens := by
  obtain ⟨mode, passes⟩ := phrase_operand operand
  exact tokensOf_of_pass (passes .idle .start rfl rfl)

theorem isOperand_operand (operand : Operand) : IsOperand operand.code.tokens := by
  obtain ⟨-, own, ⟨out, last, read, settled, rfl⟩, fed⟩ := operand_outline operand
  have whole := tokens_operand operand
  rw [tokens, tokensOf_of_run read settled, Option.some.injEq] at whole
  rwa [IsOperand, ← whole]

/-- The lines of the array. -/
def arrayLines (arguments : List Operand) : List Line :=
  [.opening "const methodArgs = ["] ++ arguments.map (fun a => .plain (a.code ++ ",")) ++ [.closing "];"]

/-- The lines after the array. -/
def invokeLines : List Line :=
  Action.guarded "procInfo" "await (procInfo.method)(methodArgs, procInfo.argumentnames);" ++ [.closing "\x7d"]

theorem lines_call (code : String) (arguments : List Operand) :
    (Statement.action (.call code arguments)).lines =
      [.opening "\x7b", fetchLine code] ++ arrayLines arguments ++ invokeLines := by
  simp [Statement.lines, Statement.inBraces, Statement.bodyLines, Action.lines, fetchLine, arrayLines, invokeLines]

theorem tokens_arrayLines (arguments : List Operand) :
    (arrayLines arguments).flatMap Line.tokens =
      argumentList ((arguments.map fun a => a.code.tokens).flatMap fun own => own ++ [.sign [',']]) := by
  simp only [arrayLines, List.flatMap_append, List.flatMap_map, List.flatMap_cons, List.flatMap_nil, Line.tokens,
    Code.tokens_append, Code.tokens_singleton]
  repeat rw [Fragment.tokens_fixed]
  rfl

/-- The text of a call has an array with one element for each argument, in order. -/
theorem tokens_call (code : String) (arguments : List Operand) :
    ∃ ahead inner behind,
      (∀ level, tokens ((Writer.start level).writeAll (Statement.action (.call code arguments)).lines).text =
        some (ahead ++ argumentList inner ++ behind)) ∧
      elementsOf inner = some (arguments.map fun a => a.code.tokens) := by
  have each : ∀ own ∈ arguments.map fun a => a.code.tokens, IsOperand own := by
    intro own mem
    obtain ⟨operand, -, rfl⟩ := List.mem_map.1 mem
    exact isOperand_operand operand
  have passed := passage_chain [.action (.call code arguments)] [] true
  have alone : Statement.chainLines [.action (.call code arguments)] =
      (Statement.action (.call code arguments)).lines :=
    List.append_nil _
  rw [alone] at passed
  refine ⟨[Line.opening "\x7b", fetchLine code].flatMap Line.tokens, _, invokeLines.flatMap Line.tokens,
    fun level => ?_, elementsOf_flatMap each⟩
  rw [tokens_writeAll passed level, lines_call, List.flatMap_append, List.flatMap_append, tokens_arrayLines]

end ScratchPage.Lexical
