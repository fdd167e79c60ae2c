import ScratchPage.Code.Statement
import ScratchPage.Compile.Value

/-!
# Compiling statements

A command block becomes a statement; a chain of blocks becomes a list of statements. The rules for one
block are given with the compilers of the values and of the chains it refers to as parameters;
`statement` closes the recursion, which ends for the same reason as that of `value`.
-/

namespace ScratchPage.Compile
set_option autoImplicit false

variable {m : Type → Type} [Compiling m]

section

variable (scope : Scope) (sub : BlockId → m Operand)
variable (stack : BlockId → m (List Statement))

/-- The statements in a slot of a block; an absent or empty slot holds none. -/
def substack (owner : Block) (slot : String) : m (List Statement) :=
  match owner.input? slot with
  | none => pure []
  | some ⟨.empty, _⟩ => pure []
  | some ⟨.block id, _⟩ => stack id
  | some ⟨payload, _⟩ => Compiling.fail (.malformedInput owner.id slot (.notSubstack payload))

/-- A place chosen in a menu; other places than the mouse and a random one have no code. -/
def destination (owner : Block) (menu : Menu) : m (Option Destination) := do
  match ← choice scope sub owner "TO" menu with
  | .fixed place =>
    if place = "_random_" then return some .random
    else if place = "_mouse_" then return some .mouse
    else
      note (.destination owner.opcode (some place) owner.id)
      return none
  | .computed _ =>
    note (.destination owner.opcode none owner.id)
    return none

/-- A costume or backdrop chosen in a menu or computed. -/
def appearance (owner : Block) (slot : String) (menu : Menu) : m Operand := do
  match ← choice scope sub owner slot menu with
  | .fixed name => return .text name
  | .computed operand => return operand

/-- The graphic effect that a block works on. -/
def effect (owner : Block) : m Effect := do
  let name := (← requireField owner "EFFECT").value
  match Effect.ofName? name with
  | some e => return e
  | none => Compiling.fail (.invalidChoice owner.opcode "EFFECT" name)

/-- The end of the drawing order that a block names. -/
def layer (owner : Block) : m Layer := do
  let name := (← requireField owner "FRONT_BACK").value
  if name = "front" then return .front
  else if name = "back" then return .back
  else Compiling.fail (.invalidChoice owner.opcode "FRONT_BACK" name)

/-- Turns towards a choice of a menu; only the mouse has code. -/
def pointTowards (owner : Block) : m Action := do
  match ← choice scope sub owner "TOWARDS" .pointTowards with
  | .fixed towards =>
    if towards = "_mouse_" then return .pointTowardsMouse
    else
      note (.pointTowards (some towards) owner.id)
      return .nothing
  | .computed _ =>
    note (.pointTowards none owner.id)
    return .nothing

/-- Makes a clone; only clones of the sprite itself have code. -/
def cloneOf (owner : Block) : m Action := do
  match ← choice scope sub owner "CLONE_OPTION" .cloneOf with
  | .fixed option =>
    if option = "_myself_" then return .cloneSelf
    else
      note (.cloneOf (some option) owner.id)
      return .nothing
  | .computed _ =>
    note (.cloneOf none owner.id)
    return .nothing

/-- The call of a procedure. A procedure that the target does not define has no code. -/
def call (owner : Block) : m Action :=
  match owner.signature with
  | none => Compiling.fail (.missingField owner.id "mutation.proccode")
  | some signature =>
    if scope.procedures.contains signature.code then do
      let arguments ← Compiling.forAll (fun slot => input sub owner slot .any) signature.argumentIds
      return .call signature.code arguments
    else do
      note (.undefinedProcedure signature.code scope.target.name)
      return .unresolvedCall

/-- The key of the variable that a block works on. -/
def variableKey (owner : Block) : m String := do
  return (← requireField owner "VARIABLE").storeKey

/-- The statement for a command block. -/
def command (owner : Block) : Command → m Statement
  | .moveSteps => return .action (.moveSteps (← input sub owner "STEPS" .numeric))
  | .goToXY => do
    let x ← input sub owner "X" .numeric
    let y ← input sub owner "Y" .numeric
    return .action (.moveTo x y)
  | .goTo => do
    match ← destination scope sub owner .goTo with
    | some place => return .action (.goTo place)
    | none => return .action .nothing
  | .changeXBy => return .action (.changeX (← input sub owner "DX" .numeric))
  | .changeYBy => return .action (.changeY (← input sub owner "DY" .numeric))
  | .setX => return .action (.setX (← input sub owner "X" .numeric))
  | .setY => return .action (.setY (← input sub owner "Y" .numeric))
  | .turnLeft => return .action (.turnLeft (← input sub owner "DEGREES" .numeric))
  | .turnRight => return .action (.turnRight (← input sub owner "DEGREES" .numeric))
  | .pointTowards => return .action (← pointTowards scope sub owner)
  | .pointInDirection => return .action (.pointInDirection (← input sub owner "DIRECTION" .numeric))
  | .setRotationStyle => return .action (.setRotationStyle (← requireField owner "STYLE").value)
  | .glideToXY => do
    let seconds ← input sub owner "SECS" .numeric
    let x ← input sub owner "X" .numeric
    let y ← input sub owner "Y" .numeric
    return .action (.glideTo seconds x y)
  | .glideTo => do
    let seconds ← input sub owner "SECS" .numeric
    match ← destination scope sub owner .glideTo with
    | some place => return .action (.glideToDestination seconds place)
    | none => return .action .nothing
  | .switchCostumeTo =>
    return .action (.switchCostume .self (← appearance scope sub owner "COSTUME" .costume))
  | .switchBackdropTo =>
    return .action (.switchCostume .stage (← appearance scope sub owner "BACKDROP" .backdrop))
  | .nextCostume => pure (.action (.nextCostume .self))
  | .nextBackdrop => pure (.action (.nextCostume .stage))
  | .changeEffectBy => do
    let change ← input sub owner "CHANGE" .numeric
    return .action (.changeEffect (← effect owner) change)
  | .setEffectTo => do
    let level ← input sub owner "VALUE" .numeric
    return .action (.setEffect (← effect owner) level)
  | .clearGraphicEffects => pure (.action .clearEffects)
  | .changeSizeBy => return .action (.changeSize (← input sub owner "CHANGE" .numeric))
  | .setSizeTo => return .action (.setSize (← input sub owner "SIZE" .numeric))
  | .showSprite => pure (.action (.setVisible true))
  | .hideSprite => pure (.action (.setVisible false))
  | .goToFrontBack => return .action (.goToLayer (← layer owner))
  | .sayForSeconds => do
    let message ← input sub owner "MESSAGE" .any
    let seconds ← input sub owner "SECS" .numeric
    return .action (.say message seconds)
  | .wait => return .action (.wait (← input sub owner "DURATION" .numeric))
  | .forever => return .forever (← substack stack owner "SUBSTACK")
  | .repeatTimes => do
    let times ← input sub owner "TIMES" .numeric
    return .repeatTimes times (← substack stack owner "SUBSTACK")
  | .repeatUntil => do
    let condition ← input sub owner "CONDITION" .any
    return .repeatUntil condition (← substack stack owner "SUBSTACK")
  | .waitUntil => return .waitUntil (← input sub owner "CONDITION" .any)
  | .branch => do
    let condition ← input sub owner "CONDITION" .any
    return .branch condition (← substack stack owner "SUBSTACK")
  | .branchElse => do
    let condition ← input sub owner "CONDITION" .any
    let body ← substack stack owner "SUBSTACK"
    return .branchElse condition body (← substack stack owner "SUBSTACK2")
  | .createCloneOf => return .action (← cloneOf scope sub owner)
  | .deleteThisClone => pure (.action .deleteClone)
  | .setVariableTo => do
    let key ← variableKey owner
    return .action (.setVariable key (← input sub owner "VALUE" .any))
  | .changeVariableBy => do
    let key ← variableKey owner
    return .action (.changeVariable key (← input sub owner "VALUE" .numeric))
  | .addToList => do
    let key ← listKey owner
    return .action (.listAdd key (← input sub owner "ITEM" .any))
  | .deleteOfList => do
    let key ← listKey owner
    return .action (.listDelete key (← input sub owner "INDEX" .numeric))
  | .deleteAllOfList => return .action (.listClear (← listKey owner))
  | .insertAtList => do
    let key ← listKey owner
    let item ← input sub owner "ITEM" .any
    return .action (.listInsert key (← input sub owner "INDEX" .numeric) item)
  | .replaceItemOfList => do
    let key ← listKey owner
    let item ← input sub owner "ITEM" .any
    return .action (.listReplace key (← input sub owner "INDEX" .numeric) item)
  | .broadcast => return .action (.broadcast (← input sub owner "BROADCAST_INPUT" .any))
  | .broadcastAndWait =>
    return .action (.broadcastAndWait (← input sub owner "BROADCAST_INPUT" .any))
  | .callProcedure => return .action (← call scope sub owner)

/-- The statement for any block in the place of a command. -/
def statementOf (owner : Block) : m Statement :=
  match owner.opcode with
  | .command op => command scope sub stack owner op
  | opcode => do
    note (.unknownCommand opcode)
    return .action (.unknown opcode.name)

end

/-- The statements for the chain that starts at a block. -/
def chainOf (graph : Graph) (one : BlockId → m Statement) (start : Option BlockId) :
    m (List Statement) :=
  match graph.chain start with
  | .ok blocks => Compiling.forAll (fun block => one block.id) blocks
  | .error e => Compiling.fail e

/-- The statement for a block, given the blocks whose compilation it is part of. -/
def statement (scope : Scope) (active : List BlockId) (id : BlockId) : Outcome Statement :=
  match _found : scope.target.graph.find? id with
  | none => Compiling.fail (.unknownBlock scope.target.name id)
  | some block =>
    if _seen : id ∈ active then Compiling.fail (.cyclicChain scope.target.name id)
    else
      statementOf scope (value scope (id :: active))
        (fun start => chainOf scope.target.graph (fun held => statement scope (id :: active) held)
          (some start))
        block
termination_by scope.target.graph.unvisited active
decreasing_by exact Graph.unvisited_cons_lt _found _seen

/-- The statements for a chain that is part of no other block. -/
def chain (scope : Scope) (start : Option BlockId) : Outcome (List Statement) :=
  chainOf scope.target.graph (statement scope []) start

end ScratchPage.Compile
