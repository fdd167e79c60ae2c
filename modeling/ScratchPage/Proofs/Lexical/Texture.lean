import ScratchPage.Proofs.Lexical.Lines
import ScratchPage.Proofs.Lexical.Marks
import ScratchPage.Proofs.Lexical.Scopes

/-!
# What code is made of

Nearly all code is woven from ordinary texts and from values. The texts that statements about a whole
target look for are few: the heads of loops and scripts, the wait for the screen, the table of procedures,
and the reading of an argument. So a property of code that holds of ordinary texts and of values, and is
kept when code is joined (`Texture`), is carried here once through every operand, action, chain, script and
target, and only those few texts are left to be looked at for each property. What is asked of a line may be
weaker than what is asked of its code, so that the lines of the table can be told from all others.
-/

namespace ScratchPage
set_option autoImplicit false

namespace Lexical

/-! ## Ordinary texts -/

/-- The word at the head of a loop. -/
def loopWord : List Char := ['w', 'h', 'i', 'l', 'e']

/-- The method that waits for the screen. -/
def refreshWord : List Char := ['s', 'c', 'r', 'e', 'e', 'n', 'R', 'e', 'f', 'r', 'e', 's', 'h']

/-- The values that a procedure is called with. -/
def argumentsWord : List Char := ['a', 'r', 'g', 's', 'M', 'e', 't', 'h', 'o', 'd', 'A', 'r', 'g', 's']

/-- The name of the table of procedures. -/
def tableName : List Char :=
  ['d', 'e', 'f', 'i', 'n', 'e', 'd', 'P', 'r', 'o', 'c', 'e', 'd', 'u', 'r', 'e', 's']

/-- The stores of the scripts that events start. -/
def eventWords : List (List Char) :=
  [['o', 'n', 'S', 't', 'a', 'r', 't', 'L', 'i', 's', 't', 'e', 'n', 'e', 'r', 's'],
   ['b', 'r', 'o', 'a', 'd', 'c', 'a', 's', 't', 'L', 'i', 's', 't', 'e', 'n', 'e', 'r', 's'],
   ['o', 'n', 'S', 't', 'a', 'r', 't', 'A', 's', 'C', 'l', 'o', 'n', 'e']]

/-- The words by which lines and readings are told apart. -/
def markedWords : List (List Char) := loopWord :: refreshWord :: argumentsWord :: tableName :: eventWords

/-- The token is a comment or one of the marked words. -/
def Token.isMarked : Token → Bool
  | .comment => true
  | .word text => markedWords.contains text
  | _ => false

/-- Tests whether every `<` is followed by a blank or by an equals sign. -/
def isLessApart : List Char → Bool
  | [] => true
  | c :: rest => (c != '<' || rest[0]? == some ' ' || rest[0]? == some '=') && isLessApart rest

/-- The text stands on one line, has no `<` that could begin markup, is read on its own and has no marked
token. -/
def isOrdinary (text : List Char) : Bool :=
  !text.any isTerminator && isLessApart text &&
    match tokensOf text with
    | some ts => !ts.any Token.isMarked
    | none => false

/-- An ordinary text in which no name of statements is a variable. -/
def isOperandText (text : List Char) : Bool :=
  isOrdinary text && (variablesOf false ((tokensOf text).getD [])).isEmpty &&
    (variablesOf true ((tokensOf text).getD [])).isEmpty

/-- A property of code that holds of values and of the texts of operands, and is kept when code is joined. -/
structure OperandTexture (p : Code → Prop) : Prop where
  append : ∀ {a b : Code}, p a → p b → p (a ++ b)
  fixed : ∀ {text : List Char}, isOperandText text = true → p [.fixed (String.ofList text)]
  /-- The sign of an operator is no ordinary text without the blanks around it. -/
  sign : ∀ op : Operator, p ([.fixed " "] ++ [.fixed op.sign] ++ [.fixed " "])
  quoted : ∀ text, p (Code.quoted text)
  number : ∀ value, p (Code.number value)
  comment : ∀ text, p (Code.comment text)

/-- A property of code that holds of ordinary texts and of values and is kept when code is joined. -/
structure Texture (p : Code → Prop) : Prop where
  append : ∀ {a b : Code}, p a → p b → p (a ++ b)
  fixed : ∀ {text : List Char}, isOrdinary text = true → p [.fixed (String.ofList text)]
  sign : ∀ op : Operator, p ([.fixed " "] ++ [.fixed op.sign] ++ [.fixed " "])
  quoted : ∀ text, p (Code.quoted text)
  number : ∀ value, p (Code.number value)
  integer : ∀ value, p (Code.integer value)
  data : ∀ value, p (Code.data value)
  comment : ∀ text, p (Code.comment text)

/-- What holds of all texts of code holds of those of operands. -/
theorem Texture.operandTexture {p : Code → Prop} (texture : Texture p) : OperandTexture p where
  append := texture.append
  fixed isText := by
    simp only [isOperandText, Bool.and_eq_true] at isText
    exact texture.fixed isText.1.1
  sign := texture.sign
  quoted := texture.quoted
  number := texture.number
  comment := texture.comment

/-- The code of an operand has the property if the arguments that it reads do. -/
theorem OperandTexture.operand {p : Code → Prop} (texture : OperandTexture p) {operand : Operand}
    (arguments : ∀ name, .argument name ∈ operand.marks → p (Operand.argument name).code) :
    p operand.code := by
  induction operand with
  | number value => exact texture.number value
  | text value => exact texture.quoted value
  | argument name => exact arguments name (by simp [Operand.marks])
  | null | false | xPosition | yPosition | direction | mouseX | mouseY | mouseDown | anyKeyDown | size
  | touchingMouse => exact texture.fixed rfl
  | costumeName wearer | costumeNumber wearer =>
    cases wearer <;>
    · repeat' apply texture.append
      all_goals exact texture.fixed rfl
  | missing opcode =>
    exact texture.append (texture.append (texture.fixed rfl) (texture.comment _)) (texture.fixed rfl)
  | keyDown key | «variable» key | listText key | listLength key =>
    repeat' apply texture.append
    all_goals first | exact texture.quoted key | exact texture.fixed rfl
  | randomInteger low high | randomReal low high =>
    repeat' apply texture.append
    all_goals first | exact texture.number _ | exact texture.fixed rfl
  | not operand ih | length operand ih | asNumber operand ih =>
    exact texture.append (texture.append (texture.fixed rfl) (ih arguments)) (texture.fixed rfl)
  | math function operand ih =>
    have inner := ih arguments
    cases function <;> exact texture.append (texture.append (texture.fixed rfl) inner) (texture.fixed rfl)
  | binary op left right ihLeft ihRight =>
    have first := ihLeft fun name mem => arguments name (by simp [Operand.marks, mem])
    have second := ihRight fun name mem => arguments name (by simp [Operand.marks, mem])
    have grouped : (Operand.binary op left right).code =
        [.fixed "("] ++ left.code ++ ([.fixed " "] ++ [.fixed op.sign] ++ [.fixed " "]) ++ right.code ++
          [.fixed ")"] := by
      simp [Operand.code]
    rw [grouped]
    exact texture.append (texture.append (texture.append (texture.append (texture.fixed rfl) first)
      (texture.sign op)) second) (texture.fixed rfl)
  | randomBetween left right ihLeft ihRight =>
    have first := ihLeft fun name mem => arguments name (by simp [Operand.marks, mem])
    have second := ihRight fun name mem => arguments name (by simp [Operand.marks, mem])
    have function : p Operand.randomFunction :=
      texture.append (a := [_]) (texture.fixed rfl) (texture.fixed rfl)
    repeat' apply texture.append
    all_goals first | assumption | exact texture.fixed rfl
  | join left right ihLeft ihRight | contains left right ihLeft ihRight
  | letter right left ihRight ihLeft =>
    have first := ihLeft fun name mem => arguments name (by simp [Operand.marks, mem])
    have second := ihRight fun name mem => arguments name (by simp [Operand.marks, mem])
    repeat' apply texture.append
    all_goals first | assumption | exact texture.fixed rfl
  | listItem key operand ih | listIndex key operand ih | listContains key operand ih =>
    have inner := ih arguments
    repeat' apply texture.append
    all_goals first | assumption | exact texture.quoted key | exact texture.fixed rfl

/-! ## Lines -/

/-- The line that looks the code of a procedure up. -/
def fetchLine (code : String) : Line :=
  .plain ("const procInfo = this.definedProcedures.get(" ++ Code.quoted code ++ ");")

/-- The line that puts the code of a procedure in. -/
def storeLine (code : String) : Line :=
  .opening ("this.definedProcedures.set(" ++ Code.quoted code ++ ", \x7b")

/-- The code of the line has a property; of what a remark says nothing is asked. -/
def Line.Holds (p : Code → Prop) : Line → Prop
  | .plain code => p code
  | .opening code => p code
  | .closing code => p code
  | .switching code => p code
  | .remark _ => True

/-- Every line has a property. -/
def AllHold (q : Line → Prop) (lines : List Line) : Prop := ∀ line ∈ lines, q line

section

variable {q : Line → Prop}

@[simp] theorem allHold_nil : AllHold q [] := by simp [AllHold]

@[simp] theorem allHold_cons {line : Line} {lines : List Line} :
    AllHold q (line :: lines) ↔ q line ∧ AllHold q lines := by
  simp [AllHold]

@[simp] theorem allHold_append {a b : List Line} : AllHold q (a ++ b) ↔ AllHold q a ∧ AllHold q b := by
  simp [AllHold, or_imp, forall_and]

theorem AllHold.imp {r : Line → Prop} {lines : List Line} (all : AllHold q lines) (weaken : ∀ line, q line → r line) :
    AllHold r lines :=
  fun line mem => weaken line (all line mem)

end

/-- The texts of statements that are not ordinary: the wait for the screen and the heads of loops. -/
def chainTexts : List String := [screenRefresh, "while (true) \x7b", "while (_i < _times) \x7b", "while (!("]

/-- The texts before the codes of procedures. -/
def tableTexts : List String := ["const procInfo = this.definedProcedures.get(", "this.definedProcedures.set("]

/-- The texts around the statements of a script that are not ordinary. -/
def scriptTexts : Script → List String
  | .whenFlagClicked _ => ["onStartListeners.push((async function() \x7b"]
  | .whenReceived _ _ => ["broadcastListeners.push(\x7b"]
  | .whenCloned _ => ["this.onStartAsClone.push((async function() \x7b"]
  | .procedure _ _ => ["method: (async function(argsMethodArgs, argsArgMapping) \x7b"]

namespace Texture

variable {p : Code → Prop} (texture : Texture p)

include texture

/-- The code of an operand has the property if the arguments that it reads do. -/
theorem operand {operand : Operand}
    (arguments : ∀ name, .argument name ∈ operand.marks → p (Operand.argument name).code) : p operand.code :=
  texture.operandTexture.operand arguments

theorem destination (destination : Destination) : p destination.code := by
  cases destination <;> exact texture.fixed rfl

theorem wearer (wearer : Wearer) : p wearer.code := by
  cases wearer <;> exact texture.fixed rfl

theorem layer (layer : Layer) : p layer.method := by
  cases layer <;> exact texture.fixed rfl

theorem flag (b : Bool) : p (if b then "true" else "false" : String) := by
  cases b <;> exact texture.fixed rfl

/-- Items of a list, each on a line of its own with a comma. -/
theorem items {α : Type} (code : α → Code) {items : List α} (each : ∀ a ∈ items, p (code a)) :
    AllHold (Line.Holds p) (items.map fun a => .plain (code a ++ ",")) := by
  intro line mem
  obtain ⟨a, item, rfl⟩ := List.mem_map.1 mem
  exact texture.append (each a item) (texture.fixed rfl)

/-- Where the texts before codes have the property, so do the lines of the table. -/
theorem tableLines (table : ∀ text ∈ tableTexts, p [.fixed text]) (code : String) :
    Line.Holds p (fetchLine code) ∧ Line.Holds p (storeLine code) :=
  ⟨texture.append (texture.append (table _ (by simp [tableTexts])) (texture.quoted code)) (texture.fixed rfl),
    texture.append (texture.append (table _ (by simp [tableTexts])) (texture.quoted code)) (texture.fixed rfl)⟩

/-- The code of a conditional. -/
theorem branchHead {condition : Operand} (inner : p condition.code) : p (Statement.branchHead condition) :=
  texture.append (texture.append (texture.fixed rfl) inner) (texture.fixed rfl)

/-- The code of the condition of a loop. -/
theorem untilHead (special : ∀ text ∈ chainTexts, p [.fixed text]) {condition : Operand}
    (inner : p condition.code) : p (Statement.untilHead condition) :=
  texture.append (texture.append (special _ (by simp [chainTexts])) inner) (texture.fixed rfl)

end Texture

/-! ## Statements -/

/-- A property of lines that follows from a texture of their code. -/
structure Weave (p : Code → Prop) (q : Line → Prop) : Prop extends Texture p where
  line : ∀ line, Line.Holds p line → q line

theorem Texture.weave {p : Code → Prop} (texture : Texture p) : Weave p (Line.Holds p) :=
  { texture with line := fun _ holds => holds }

namespace Weave

variable {p : Code → Prop} {q : Line → Prop}

/-- The lines of an action have the property if its operands do, and the line that looks a procedure up. -/
theorem action (weave : Weave p q) {act : Action} (operands : ∀ operand ∈ act.operands, p operand.code)
    (calls : ∀ code ∈ act.calls, q (fetchLine code)) : AllHold q act.lines := by
  have texture := weave.toTexture
  cases act with
  | call code arguments =>
    have given : AllHold q (arguments.map fun a => .plain (a.code ++ ",")) :=
      (texture.items _ operands).imp weave.line
    have guarded : p ("if (" ++ "procInfo" ++ ") \x7b") :=
      texture.append (texture.append (texture.fixed rfl) (texture.fixed rfl)) (texture.fixed rfl)
    simp only [Action.lines, Action.guarded, allHold_append, allHold_cons, allHold_nil, and_true]
    exact ⟨⟨⟨⟨calls code (by simp [Action.calls]), weave.line _ (texture.fixed rfl)⟩, given⟩,
      weave.line _ (texture.fixed rfl)⟩, weave.line _ guarded, weave.line _ (texture.fixed rfl),
      weave.line _ (texture.fixed rfl)⟩
  | _ =>
    apply AllHold.imp _ weave.line
    -- Each line is cut into its fixed texts, its operands and its quoted names.
    simp only [Action.operands, List.forall_mem_cons, List.not_mem_nil, false_imp_iff, implies_true,
      and_true] at operands
    simp only [Action.lines, Action.listPlace, Action.guarded, Operand.listCode, allHold_append, allHold_cons,
      allHold_nil, Line.Holds, and_true]
    repeat' first | apply And.intro | apply texture.append
    all_goals first
      | exact texture.fixed rfl | exact texture.quoted _ | exact operands | exact operands.1
      | exact operands.2 | exact operands.2.1 | exact operands.2.2 | exact texture.destination _
      | exact texture.wearer _ | exact texture.layer _ | exact texture.flag _

/-- A loop adds its head and the wait for the screen to its body. -/
theorem loopLines (weave : Weave p q) (special : ∀ text ∈ chainTexts, p [.fixed text]) {head : Code}
    {body : List Line} (begins : p head) (inside : AllHold q body) : AllHold q (loopLines head body) := by
  simp only [ScratchPage.loopLines, allHold_append, allHold_cons, allHold_nil, and_true]
  exact ⟨⟨weave.line _ begins, inside⟩, weave.line _ (special _ (by simp [chainTexts])),
    weave.line _ (weave.fixed rfl)⟩

mutual

/-- The lines of a statement have the property if the arguments that it reads do, and the lines that look
procedures up. -/
theorem body (weave : Weave p q) (special : ∀ text ∈ chainTexts, p [.fixed text]) :
    (statement : Statement) →
    (∀ name, .argument name ∈ statement.marks → p (Operand.argument name).code) →
    (∀ code ∈ statement.calls, q (fetchLine code)) → AllHold q statement.bodyLines
  | .action act, arguments, calls => by
    refine weave.action (fun operand mem => weave.operand fun name read => arguments name ?_) calls
    have nested : .argument name ∈ act.operands.flatMap Operand.marks := List.mem_flatMap.2 ⟨operand, mem, read⟩
    cases act <;> first | exact nested | cases mem
  | .forever body, arguments, calls =>
    weave.loopLines special (special _ (by simp [chainTexts])) (weave.chain special body arguments calls)
  | .repeatTimes times body, arguments, calls => by
    have count := weave.operand fun name mem => arguments name (List.mem_append_left _ mem)
    have inside := weave.chain special body (fun name mem => arguments name (List.mem_append_right _ mem)) calls
    have step : AllHold q (Statement.chainLines body ++ [.plain "_i++;"]) := by
      rw [allHold_append, allHold_cons]
      exact ⟨inside, weave.line _ (weave.fixed rfl), allHold_nil⟩
    have bound : p ("const _times = " ++ times.code ++ ";") :=
      weave.append (weave.append (weave.fixed rfl) count) (weave.fixed rfl)
    rw [Statement.bodyLines, allHold_append, allHold_cons, allHold_cons]
    exact ⟨⟨weave.line _ bound, weave.line _ (weave.fixed rfl), allHold_nil⟩,
      weave.loopLines special (special _ (by simp [chainTexts])) step⟩
  | .repeatUntil condition body, arguments, calls => by
    have test := weave.operand fun name mem => arguments name (List.mem_append_left _ mem)
    have inside := weave.chain special body (fun name mem => arguments name (List.mem_append_right _ mem)) calls
    exact weave.loopLines special (weave.untilHead special test) inside
  | .waitUntil condition, arguments, _ =>
    weave.loopLines special (weave.untilHead special (weave.operand arguments)) allHold_nil
  | .branch condition body, arguments, calls => by
    have test := weave.operand fun name mem => arguments name (List.mem_append_left _ mem)
    have inside := weave.chain special body (fun name mem => arguments name (List.mem_append_right _ mem)) calls
    simp only [Statement.bodyLines, allHold_append, allHold_cons, allHold_nil, and_true]
    exact ⟨⟨weave.line _ (weave.branchHead test), inside⟩, weave.line _ (weave.fixed rfl)⟩
  | .branchElse condition body other, arguments, calls => by
    rw [Statement.calls, List.forall_mem_append] at calls
    have test := weave.operand fun name mem => arguments name (List.mem_append_left _ mem)
    have inside := weave.chain special body
      (fun name mem => arguments name (List.mem_append_right _ (List.mem_append_left _ mem))) calls.1
    have otherwise := weave.chain special other
      (fun name mem => arguments name (List.mem_append_right _ (List.mem_append_right _ mem))) calls.2
    simp only [Statement.bodyLines, allHold_append, allHold_cons, allHold_nil, and_true]
    exact ⟨⟨⟨⟨weave.line _ (weave.branchHead test), inside⟩, weave.line _ (weave.fixed rfl)⟩, otherwise⟩,
      weave.line _ (weave.fixed rfl)⟩

/-- The lines of statements one after the other. -/
theorem chain (weave : Weave p q) (special : ∀ text ∈ chainTexts, p [.fixed text]) :
    (statements : List Statement) →
    (∀ name, .argument name ∈ Statement.chainMarks statements → p (Operand.argument name).code) →
    (∀ code ∈ Statement.chainCalls statements, q (fetchLine code)) →
    AllHold q (Statement.chainLines statements)
  | [], _, _ => allHold_nil
  | statement :: rest, arguments, calls => by
    rw [Statement.chainCalls, List.forall_mem_append] at calls
    have first := weave.body special statement (fun name mem => arguments name (List.mem_append_left _ mem)) calls.1
    have others := weave.chain special rest (fun name mem => arguments name (List.mem_append_right _ mem)) calls.2
    simp only [Statement.chainLines, Statement.inBraces, allHold_append, allHold_cons, allHold_nil, and_true]
    exact ⟨⟨⟨weave.line _ (weave.fixed rfl), first⟩, weave.line _ (weave.fixed rfl)⟩, others⟩

end

/-! ## Scripts and targets -/

/-- The lines of a script have the property if its marked texts and its arguments do, and the lines of the
table for the procedures that it calls or is. -/
theorem script (weave : Weave p q) (special : ∀ text ∈ chainTexts, p [.fixed text]) {script : Script}
    (framed : ∀ text ∈ scriptTexts script, p [.fixed text])
    (arguments : ∀ name, .argument name ∈ script.marks → p (Operand.argument name).code)
    (calls : ∀ code ∈ script.calls, q (fetchLine code)) (stores : ∀ code ∈ script.defines, q (storeLine code)) :
    AllHold q script.lines := by
  have inside := weave.chain special script.body arguments calls
  have refresh : p screenRefresh := special _ (by simp [chainTexts])
  have texture := weave.toTexture
  cases script with
  | whenFlagClicked body | whenCloned body | whenReceived message body =>
    simp only [scriptTexts, List.mem_singleton, forall_eq, Script.body] at framed inside
    simp only [Script.lines, allHold_append, allHold_cons, allHold_nil, inside, and_true]
    repeat' apply And.intro
    all_goals apply weave.line
    all_goals simp only [Line.Holds]
    all_goals repeat' apply texture.append
    all_goals first | exact framed | exact refresh | exact texture.quoted _ | exact texture.fixed rfl
  | procedure signature body =>
    simp only [scriptTexts, List.mem_singleton, forall_eq, Script.body] at framed inside
    simp only [Script.lines, allHold_append, allHold_cons, allHold_nil, inside, and_true]
    refine ⟨⟨stores _ (by simp [Script.defines]), weave.line _ framed⟩, ?_⟩
    repeat' apply And.intro
    all_goals apply weave.line
    all_goals simp only [Line.Holds]
    all_goals repeat' apply texture.append
    all_goals first | exact texture.data _ | exact texture.fixed rfl

/-- The lines that store what all sprites share, in either of the two stores. -/
theorem globalLines (weave : Weave p q) {store : String}
    (known : store = "globalVariables" ∨ store = "globalLists") (values : List (String × Json)) :
    AllHold q (Descriptor.globalLines store values) := by
  intro line mem
  obtain ⟨⟨id, value⟩, -, rfl⟩ := List.mem_map.1 mem
  have name : p store := by rcases known with rfl | rfl <;> exact weave.fixed rfl
  apply weave.line
  have texture := weave.toTexture
  simp only [Line.Holds]
  repeat' apply texture.append
  all_goals first | exact name | exact texture.quoted _ | exact texture.data _ | exact texture.fixed rfl

/-- The lines before the scripts of a target. -/
theorem headLines (weave : Weave p q) (d : Descriptor) : AllHold q d.headLines := by
  have flag : p (Descriptor.flag d.isStage) := weave.flag d.isStage
  have given : AllHold (Line.Holds p) (d.arguments.map fun a => .plain (a ++ ",")) := by
    apply weave.items id
    simp only [Descriptor.arguments, List.mem_cons, List.not_mem_nil, or_false, forall_eq_or_imp, forall_eq]
    exact ⟨weave.quoted _, weave.number _, weave.number _, weave.number _, weave.number _,
      weave.data _, weave.integer _, weave.quoted _, weave.data _, weave.data _, flag⟩
  simp only [Descriptor.headLines, allHold_append, allHold_cons, allHold_nil, and_true]
  exact ⟨⟨⟨⟨weave.globalLines (.inl rfl) _, weave.globalLines (.inr rfl) _⟩, weave.line _ (weave.fixed rfl),
    weave.line _ (weave.fixed rfl)⟩, given.imp weave.line⟩, weave.line _ (weave.fixed rfl)⟩

/-- The lines after the scripts of a target. -/
theorem tailLines (weave : Weave p q) (d : Descriptor) : AllHold q d.tailLines := by
  have flag : p (Descriptor.flag d.visible) := weave.flag d.visible
  have visible : p ("visible: " ++ Descriptor.flag d.visible ++ ",") :=
    weave.append (weave.append (weave.fixed rfl) flag) (weave.fixed rfl)
  simp only [Descriptor.tailLines, allHold_cons, allHold_nil, and_true]
  exact ⟨weave.line _ (weave.fixed rfl), weave.line _ (weave.fixed rfl), weave.line _ visible,
    weave.line _ (weave.fixed rfl)⟩

/-- The lines of a target have the property if the marked texts and the arguments in its scripts do, and the
lines of the table for the procedures that they call or are. -/
theorem descriptor (weave : Weave p q) (d : Descriptor) (special : ∀ text ∈ chainTexts, p [.fixed text])
    (framed : ∀ script ∈ d.scripts, ∀ text ∈ scriptTexts script, p [.fixed text])
    (arguments : ∀ script ∈ d.scripts, ∀ name, .argument name ∈ script.marks → p (Operand.argument name).code)
    (calls : ∀ script ∈ d.scripts, ∀ code ∈ script.calls, q (fetchLine code))
    (stores : ∀ script ∈ d.scripts, ∀ code ∈ script.defines, q (storeLine code)) :
    AllHold q (d.headLines ++ d.scriptLines ++ d.tailLines) := by
  have scripts : AllHold q d.scriptLines := by
    intro line mem
    obtain ⟨script, isIn, own⟩ := List.mem_flatMap.1 mem
    exact weave.script special (framed script isIn) (arguments script isIn) (calls script isIn) (stores script isIn)
      line own
  rw [allHold_append, allHold_append]
  exact ⟨⟨weave.headLines d, scripts⟩, weave.tailLines d⟩

end Weave

/-! ## Marked words -/

theorem not_mem_valueWords {word : List Char} (marked : word ∈ markedWords) : word ∉ valueWords := by
  revert word
  decide

/-- A marked word stands in the few texts that are not ordinary only. -/
theorem texture_lacks {word : List Char} (marked : word ∈ markedWords) : Texture (Lacks word) where
  append first second := first.append second
  fixed := by
    intro text ordinary
    constructor
    rw [Code.tokens_singleton, Fragment.tokens_fixed]
    simp only [isOrdinary, Bool.and_eq_true] at ordinary
    revert ordinary
    cases tokensOf text with
    | none => simp
    | some ts =>
      rintro ⟨-, plain⟩ mem
      rw [Bool.not_eq_true', List.any_eq_false] at plain
      exact plain _ mem (by simpa [Token.isMarked] using marked)
  sign op := .append (.append (.fixed rfl) (by cases op <;> exact .fixed rfl)) (.fixed rfl)
  quoted text := .of_value (valueText_quoted text) (not_mem_valueWords marked)
  number value := .of_value (valueText_number value) (not_mem_valueWords marked)
  integer value := .of_value (valueText_integer value) (not_mem_valueWords marked)
  data value := .of_value (valueText_data value) (not_mem_valueWords marked)
  comment text := .comment text

theorem not_mem_of_holds {word : List Char} {line : Line} (lacks : Line.Holds (Lacks word) line) :
    .word word ∉ line.tokens := by
  cases line with
  | plain _ | opening _ | closing _ | switching _ => exact lacks.absent
  | remark _ => simp [Line.tokens]

/-! ## One line -/

/-- The text does not end a line. -/
def OneLine (text : List Char) : Prop := ∀ c ∈ text, isTerminator c = false

instance : DecidablePred OneLine := fun text =>
  decidable_of_iff (text.all (fun c => !isTerminator c) = true) (by simp [OneLine])

namespace OneLine

theorem append {a b : List Char} (first : OneLine a) (second : OneLine b) : OneLine (a ++ b) := by
  intro c mem
  exact (List.mem_append.1 mem).elim (first c) (second c)

theorem cons {c : Char} {text : List Char} (first : isTerminator c = false) (rest : OneLine text) :
    OneLine (c :: text) := by
  intro d mem
  rcases List.mem_cons.1 mem with rfl | mem
  · exact first
  · exact rest d mem

end OneLine

/-- The reader is in the middle of a string. -/
def Mode.inString : Mode → Bool
  | .string _ => true
  | .escape _ => true
  | _ => false

/-- A string goes on until it is finished, and it does not go on to another line. -/
theorem step_inString {mode next : Mode} {c : Char} (inside : mode.inString = true)
    (read : step mode c = some ([], next)) : isTerminator c = false ∧ next.inString = true := by
  cases mode with
  | string content =>
    simp only [step, Mode.continues, Mode.advance, if_true] at read
    split_ifs at read with quote terminator slash
    · simp at read
    · simp only [Option.some.injEq, Prod.mk.injEq] at read
      exact ⟨by simpa using terminator, by simp [← read.2, Mode.inString]⟩
    · simp only [Option.some.injEq, Prod.mk.injEq] at read
      exact ⟨by simpa using terminator, by simp [← read.2, Mode.inString]⟩
  | escape content =>
    simp only [step, Mode.continues, Mode.advance, if_true] at read
    split_ifs at read with terminator
    simp only [Option.some.injEq, Prod.mk.injEq] at read
    exact ⟨by simpa using terminator, by simp [← read.2, Mode.inString]⟩
  | _ => cases inside

/-- What is read inside a string breaks no line. -/
theorem oneLine_of_run {mode last : Mode} {text : List Char} (inside : mode.inString = true)
    (read : run mode text = some ([], last)) : OneLine text := by
  induction text generalizing mode with
  | nil => simp [OneLine]
  | cons c rest ih =>
    obtain ⟨⟨ts, next⟩, here, there⟩ := Option.bind_eq_some_iff.1 read
    obtain ⟨⟨out, _⟩, later, same⟩ := Option.map_eq_some_iff.1 there
    simp only [Prod.mk.injEq, List.append_eq_nil_iff] at same
    obtain ⟨⟨rfl, rfl⟩, rfl⟩ := same
    obtain ⟨first, stays⟩ := step_inString inside here
    exact .cons first (ih stays later)

theorem InString.oneLine {text : List Char} (inside : InString text) : OneLine ('"' :: text ++ ['"']) :=
  .cons rfl (OneLine.append (oneLine_of_run rfl (inside [])) (by decide))

theorem IsNumeral.oneLine {text : List Char} (numeral : IsNumeral text) : OneLine text := by
  intro c mem
  rcases numeral.chars c mem with digit | listed
  · by_contra line
    simp only [isTerminator, Bool.not_eq_false, Bool.or_eq_true, beq_iff_eq, or_assoc] at line
    rcases line with rfl | rfl | rfl | rfl <;> cases digit
  · fin_cases listed <;> rfl

theorem IsNumeral.oneLine_minus {text : List Char} (numeral : IsNumeral text) (negative : Bool) :
    OneLine (if negative then '-' :: text else text) := by
  cases negative with
  | true => exact .cons rfl numeral.oneLine
  | false => exact numeral.oneLine

/-- A number is on one line. -/
theorem oneLine_number (f : Float) : OneLine (numberLiteral f).toList := by
  unfold numberLiteral
  split_ifs with nan infinite negative
  · decide
  · decide
  · decide
  · rw [Decimal.signed, String.toList_ofList]
    exact (isNumeral_plain _).oneLine_minus _

theorem oneLine_integer (i : Int) : OneLine (Json.intText i).toList := by
  rw [Json.intText, String.toList_ofList]
  have digits := (isNumeral_digitChars i.natAbs).oneLine_minus (decide (i < 0))
  simpa using digits

theorem oneLine_jsonNumber (n : Json.Number) : OneLine (Text.guarded n.text).toList := by
  have guarded : ∀ {text : List Char}, IsNumeral text → ∀ negative : Bool,
      OneLine (Text.guarded (String.ofList (if negative then '-' :: text else text))).toList := by
    intro text numeral negative
    have minus : Text.guardChar '-' = ['-'] := by decide
    have line := numeral.oneLine_minus negative
    cases negative <;> simpa [Text.guarded, minus, numeral.guarded] using line
  cases n with
  | int i =>
    have line := guarded (isNumeral_digitChars i.natAbs) (decide (i < 0))
    simpa [Json.Number.text, Json.intText] using line
  | double f => exact guarded (isNumeral_scientific _) (Binary.isNegative f)

/-- Texts on one line are on one line with commas between them. -/
theorem oneLine_intercalate {texts : List String} (each : ∀ t ∈ texts, OneLine (Text.guarded t).toList) :
    OneLine (Text.guarded (",".intercalate texts)).toList := by
  induction texts with
  | nil => decide
  | cons first texts ih =>
    cases texts with
    | nil => simpa using each first
    | cons second texts =>
      rw [String.intercalate_cons_cons, guarded_append, guarded_append]
      exact (OneLine.append (each first (by simp)) (by decide)).append (ih fun t mem => each t (by simp [mem]))

mutual

/-- The step for data, form by form: nothing in it breaks the line. -/
theorem oneLine_data : (value : Json) → OneLine value.literal.toList
  | .null => by decide
  | .bool true => by decide
  | .bool false => by decide
  | .number n => oneLine_jsonNumber n
  | .string text => by
    rw [Json.literal, Json.text, guarded_quote]
    exact (inString_guardedText text).oneLine
  | .array items => by
    have inner := oneLine_intercalate (oneLine_items items)
    rw [Json.literal, Json.text, guarded_append, guarded_append]
    exact (OneLine.append (by decide) inner).append (by decide)
  | .object fields => by
    have inner := oneLine_intercalate (oneLine_fields fields)
    rw [Json.literal, Json.text, guarded_append, guarded_append]
    exact (OneLine.append (by decide) inner).append (by decide)

theorem oneLine_items : (items : List Json) → ∀ t ∈ Json.itemTexts items, OneLine (Text.guarded t).toList
  | [] => by simp [Json.itemTexts]
  | item :: rest => by
    have first := oneLine_data item
    have others := oneLine_items rest
    simpa [Json.itemTexts] using ⟨first, others⟩

/-- The step for the fields of an object. -/
theorem oneLine_fields : (fields : List (String × Json)) →
    ∀ t ∈ Json.fieldTexts fields, OneLine (Text.guarded t).toList
  | [] => by simp [Json.fieldTexts]
  | (key, value) :: rest => by
    have name := (inString_guardedText key).oneLine
    rw [← guarded_quote] at name
    have first := (name.append (b := (Text.guarded ":").toList) (by decide)).append (oneLine_data value)
    rw [Json.literal, ← guarded_append, ← guarded_append] at first
    simp only [Json.fieldTexts, List.mem_cons, forall_eq_or_imp]
    exact ⟨first, oneLine_fields rest⟩

end

theorem oneLine_of_isOrdinary {text : List Char} (ordinary : isOrdinary text = true) : OneLine text := by
  simp only [isOrdinary, Bool.and_eq_true, Bool.not_eq_true', List.any_eq_false, Bool.not_eq_true] at ordinary
  exact ordinary.1.1

theorem Code.text_singleton (fragment : Fragment) : Code.text [fragment] = fragment.text := by
  simp [Code.text]

theorem Code.text_append (a b : Code) : Code.text (a ++ b) = a.text ++ b.text := by
  simp [Code.text]

/-- No value and no fixed text ends a line. -/
theorem texture_oneLine : Texture fun code => OneLine code.text.toList where
  append first second := by
    rw [Code.text_append, String.toList_append]
    exact first.append second
  fixed ordinary := by
    simpa [Code.text_singleton, Fragment.text] using oneLine_of_isOrdinary ordinary
  sign op := by cases op <;> decide
  quoted text := by
    rw [Code.quoted, Code.text_singleton, Fragment.text, quoted_toList]
    exact (InString.flatMap inString_escapeChar text.toList).oneLine
  number value := by
    rw [Code.number, Code.text_singleton]
    exact oneLine_number value
  integer value := by
    rw [Code.integer, Code.text_singleton]
    exact oneLine_integer value
  data value := by
    rw [Code.data, Code.text_singleton]
    exact oneLine_data value
  comment text := by
    have plain : OneLine (Text.commentText text).toList := fun c mem => (commentText_plain text c mem).1
    rw [Code.comment, Code.text_singleton, Fragment.text, String.toList_append, String.toList_append]
    exact (OneLine.append (by decide) plain).append (by decide)

theorem oneLine_operand (operand : Operand) : OneLine operand.code.text.toList := by
  apply texture_oneLine.operand
  intro name _
  exact texture_oneLine.append (texture_oneLine.append (by decide) (texture_oneLine.quoted name)) (by decide)

end Lexical

end ScratchPage
