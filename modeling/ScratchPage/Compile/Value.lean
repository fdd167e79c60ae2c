import ScratchPage.Code.Operand
import ScratchPage.Compile.Finding
import ScratchPage.Decimal.Numeral
import ScratchPage.Outcome
import ScratchPage.Target

/-!
# Compiling values

A reporter block becomes an operand. The rules for one block are given with the compiler of the blocks
it refers to as a parameter, for any kind of computation; `value` closes the recursion for outcomes. A
block that is met while it is being compiled is an error, so the recursion ends.
-/

namespace ScratchPage
set_option autoImplicit false

/-- What the compilation of a script depends on besides its blocks: the target, the procedures it
defines and the signature of the procedure the script belongs to. -/
structure Scope where
  target : Target
  procedures : List String
  signature : Option Signature := none

/-- The name is one of the arguments of the procedure that the script belongs to. -/
def Scope.hasArgument (scope : Scope) (name : String) : Bool :=
  match scope.signature with
  | some signature => signature.argumentNames.contains name
  | none => false

/-- What a slot needs. -/
inductive Coercion where
  | any
  | numeric
deriving DecidableEq, Repr

/-- What a menu slot holds: a choice made in the editor or a value computed at run time. -/
inductive Choice where
  | fixed (name : String)
  | computed (operand : Operand)

namespace Compile

variable {m : Type → Type} [Compiling m]

/-- Raises a finding of the compiler. -/
def note (f : Finding) : m Unit := Compiling.report f.diagnostic

/-- The field of a block that must be there. -/
def requireField (block : Block) (slot : String) : m Field :=
  match block.field? slot with
  | some field => pure field
  | none => Compiling.fail (.missingField block.id slot)

/-- A literal of this kind and text stands for a number. -/
def isNumber (kind : LiteralKind) (raw : String) : Bool :=
  kind.isNumeric || (kind == .string && Numeral.isNumeric raw)

/-- A literal: a number where a number is needed and possible, and otherwise its text. -/
def literal (owner : Block) (slot : String) (kind : LiteralKind) (raw : String) :
    Coercion → m Operand
  | .any => pure (.text raw)
  | .numeric =>
    if isNumber kind raw then pure (.number (Numeral.leadingNumber raw))
    else do
      note (.notNumeric kind raw slot owner.opcode owner.id)
      return .text raw

/-- A reading of a variable or list, turned into a number where one is needed. -/
def reading (operand : Operand) : Coercion → Operand
  | .any => operand
  | .numeric => .asNumber operand

section

variable (scope : Scope) (sub : BlockId → m Operand)

/-- The operand for the content of a slot. -/
def resolve (owner : Block) (slot : String) (payload : Payload) (coercion : Coercion) :
    m Operand :=
  match payload with
  | .empty => do
    note (.emptyInput slot owner.opcode owner.id)
    return .null
  | .literal kind raw => literal owner slot kind raw coercion
  | .variable name id => pure (reading (.variable (id.getD name)) coercion)
  | .list name id => pure (reading (.listText (id.getD name)) coercion)
  | .block id => sub id

/-- The operand for a slot; an absent slot is null. -/
def input (owner : Block) (slot : String) (coercion : Coercion) : m Operand :=
  match owner.input? slot with
  | some input => resolve sub owner slot input.payload coercion
  | none => do
    note (.missingInput slot owner.opcode owner.id)
    return .null

/-- Two operands with an operator between them. -/
def binary (owner : Block) (op : Operator) (left right : String) (coercion : Coercion) :
    m Operand := do
  let l ← input sub owner left coercion
  let r ← input sub owner right coercion
  return .binary op l r

/-- The choice in a menu slot. -/
def choice (owner : Block) (slot : String) (menu : Menu) : m Choice :=
  match owner.input? slot with
  | none => Compiling.fail (.malformedInput owner.id slot .missingMenu)
  | some ⟨.block id, shadow⟩ => do
    let held ← Compiling.attempt (scope.target.graph.get id)
    if held.opcode = .menu menu ∧ shadow.isNone then
      let field ← requireField held menu.field
      return .fixed field.value
    else
      match shadow, held.opcode with
      | some _, _ => return .computed (← sub id)
      | none, .reporter _ => return .computed (← sub id)
      | none, opcode => Compiling.fail (.malformedInput owner.id slot (.notMenu opcode))
  | some input => return .computed (← resolve sub owner slot input.payload .any)

/-- The key of the list that a block works on. -/
def listKey (owner : Block) : m String := do
  return (← requireField owner "LIST").storeKey

/-- The finite number that a literal input stands for. -/
def constant? (input : Option Input) : Option Float :=
  match input with
  | some ⟨.literal kind raw, _⟩ =>
    let value := Numeral.leadingNumber raw
    if isNumber kind raw && !value.isNaN && !value.isInf then some value else none
  | _ => none

/-- A random number. Known bounds decide now between integers and other numbers, other bounds decide
at run time. The bounds are never exchanged. -/
def random (owner : Block) : m Operand :=
  match constant? (owner.input? "FROM"), constant? (owner.input? "TO") with
  | some low, some high =>
    if Binary.isIntegral low && Binary.isIntegral high then pure (.randomInteger low high)
    else pure (.randomReal low high)
  | _, _ => do
    let low ← input sub owner "FROM" .numeric
    let high ← input sub owner "TO" .numeric
    return .randomBetween low high

/-- A function of one number, chosen in a field. -/
def mathFunction (owner : Block) : m Operand := do
  let name := (← requireField owner "OPERATOR").value
  let x ← input sub owner "NUM" .numeric
  match MathFunction.ofName? name with
  | some f => return .math f x
  | none => Compiling.fail (.unknownMathFunction name)

/-- The key that the browser reports for a key named in a menu. -/
def browserKey? (name : String) : Option String :=
  if name = "space" then some " "
  else if name = "up arrow" then some "ArrowUp"
  else if name = "down arrow" then some "ArrowDown"
  else if name = "left arrow" then some "ArrowLeft"
  else if name = "right arrow" then some "ArrowRight"
  else if name = "enter" then some "Enter"
  else if name.toList.length = 1 then some name
  else none

/-- Whether a key is down. -/
def keyPressed (owner : Block) : m Operand := do
  match ← choice scope sub owner "KEY_OPTION" .key with
  | .computed _ =>
    note (.computedKey owner.id)
    return .false
  | .fixed name =>
    if name = "any" then return .anyKeyDown
    else
      match browserKey? name with
      | some key => return .keyDown key
      | none => Compiling.fail (.unknownKey name)

/-- Whether the sprite touches something; only the mouse can be asked for. -/
def touching (owner : Block) : m Operand := do
  match ← choice scope sub owner "TOUCHINGOBJECTMENU" .touchingObject with
  | .fixed object =>
    if object = "_mouse_" then return .touchingMouse
    else
      note (.touchingObject (some object) owner.id)
      return .false
  | .computed _ =>
    note (.touchingObject none owner.id)
    return .false

/-- The number or the name of the costume shown. -/
def numberOrName (owner : Block) (wearer : Wearer) : m Operand := do
  let value := (← requireField owner "NUMBER_NAME").value
  if value = "name" then return .costumeName wearer
  else if value = "number" then return .costumeNumber wearer
  else Compiling.fail (.invalidChoice owner.opcode "NUMBER_NAME" value)

/-- An argument of the procedure that the script belongs to; elsewhere a neutral value. -/
def argument (owner : Block) (neutral : Operand) : m Operand := do
  let name := (← requireField owner "VALUE").value
  if scope.hasArgument name then return .argument name
  else
    note (.argumentOutside name neutral.code.text)
    return neutral

/-- The operand for a reporter block. -/
def reporter (owner : Block) : Reporter → m Operand
  | .and => binary sub owner .and "OPERAND1" "OPERAND2" .any
  | .or => binary sub owner .or "OPERAND1" "OPERAND2" .any
  | .not => return .not (← input sub owner "OPERAND" .any)
  | .equals => binary sub owner .equal "OPERAND1" "OPERAND2" .any
  | .greater => binary sub owner .greater "OPERAND1" "OPERAND2" .any
  | .less => binary sub owner .less "OPERAND1" "OPERAND2" .any
  | .add => binary sub owner .plus "NUM1" "NUM2" .numeric
  | .subtract => binary sub owner .minus "NUM1" "NUM2" .numeric
  | .multiply => binary sub owner .times "NUM1" "NUM2" .numeric
  | .divide => binary sub owner .over "NUM1" "NUM2" .numeric
  | .modulo => binary sub owner .modulo "NUM1" "NUM2" .numeric
  | .round => return .math .round (← input sub owner "NUM" .numeric)
  | .random => random sub owner
  | .mathFunction => mathFunction sub owner
  | .join => do
    let left ← input sub owner "STRING1" .any
    let right ← input sub owner "STRING2" .any
    return .join left right
  | .contains => do
    let whole ← input sub owner "STRING1" .any
    let part ← input sub owner "STRING2" .any
    return .contains whole part
  | .length => return .length (← input sub owner "STRING" .any)
  | .letterOf => do
    let index ← input sub owner "LETTER" .numeric
    let whole ← input sub owner "STRING" .any
    return .letter index whole
  | .xPosition => pure .xPosition
  | .yPosition => pure .yPosition
  | .direction => pure .direction
  | .mouseX => pure .mouseX
  | .mouseY => pure .mouseY
  | .mouseDown => pure .mouseDown
  | .keyPressed => keyPressed scope sub owner
  | .touchingObject => touching scope sub owner
  | .size => pure .size
  | .costumeNumberName => numberOrName owner .self
  | .backdropNumberName => numberOrName owner .stage
  | .variable => return .variable (← requireField owner "VARIABLE").storeKey
  | .listContents => return .listText (← listKey owner)
  | .itemOfList => do
    let key ← listKey owner
    return .listItem key (← input sub owner "INDEX" .numeric)
  | .itemNumOfList => do
    let key ← listKey owner
    return .listIndex key (← input sub owner "ITEM" .any)
  | .listContainsItem => do
    let key ← listKey owner
    return .listContains key (← input sub owner "ITEM" .any)
  | .lengthOfList => return .listLength (← listKey owner)
  | .argumentStringNumber => argument scope owner (.number 0)
  | .argumentBoolean => argument scope owner .false

/-- The operand for any block in the place of a value. -/
def valueOf (owner : Block) : m Operand :=
  match owner.opcode with
  | .reporter op => reporter scope sub owner op
  | .menu menu => return .text (← requireField owner menu.field).value
  | opcode => do
    note (.unknownValue opcode)
    return .missing opcode.name

end

/-- The operand for a block, given the blocks whose compilation it is part of. -/
def value (scope : Scope) (active : List BlockId) (id : BlockId) : Outcome Operand :=
  match _found : scope.target.graph.find? id with
  | none => Compiling.fail (.unknownBlock scope.target.name id)
  | some block =>
    if _seen : id ∈ active then Compiling.fail (.cyclicChain scope.target.name id)
    else valueOf scope (fun held => value scope (id :: active) held) block
termination_by scope.target.graph.unvisited active
decreasing_by exact Graph.unvisited_cons_lt _found _seen

end Compile

end ScratchPage
