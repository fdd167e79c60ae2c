import ScratchPage.Code.Script
import ScratchPage.Compile.Statement

/-!
# Compiling scripts

Each top-level block is looked at in canvas order. The hats that the page knows become scripts; of the
others a finding is raised.
-/

namespace ScratchPage.Compile
set_option autoImplicit false

/-- The signature of the procedure that a definition block defines, from its prototype. -/
def definedSignature (graph : Graph) (definition : Block) : Except CompileError Signature :=
  let malformed (fault : InputFault) : CompileError :=
    .malformedInput definition.id "custom_block" fault
  match (definition.input? "custom_block").bind Input.blockId? with
  | none => .error (malformed .noPrototype)
  | some id =>
    match graph.get id with
    | .error e => .error e
    | .ok prototype =>
      match prototype.signature with
      | some signature => .ok signature
      | none => .error (malformed .noProcedureCode)

/-- The codes of the procedures that top-level blocks define. -/
def definedProcedures (graph : Graph) : List Block → Except CompileError (List String)
  | [] => .ok []
  | block :: rest =>
    if block.opcode = .hat .defineProcedure then
      match definedSignature graph block with
      | .error e => .error e
      | .ok signature => (definedProcedures graph rest).map (signature.code :: ·)
    else definedProcedures graph rest

section

variable {m : Type → Type} [Compiling m] (body : Scope → Option BlockId → m (List Statement))

/-- A hat that the page does not know. -/
def unsupported (scope : Scope) (block : Block) : m (Option Script) := do
  note (.unsupportedHat block.opcode scope.target.name)
  return none

/-- The script that a procedure definition starts. -/
def procedure (scope : Scope) (block : Block) : m (Option Script) := do
  let signature ← Compiling.attempt (definedSignature scope.target.graph block)
  let _ ← if signature.warp then note (.warp signature.code) else pure ()
  let statements ← body { scope with signature := some signature } block.next
  return some (.procedure signature statements)

/-- The script that a hat starts, if the page knows the hat. -/
def hat (scope : Scope) (block : Block) : Hat → m (Option Script)
  | .whenFlagClicked => return some (.whenFlagClicked (← body scope block.next))
  | .whenBroadcastReceived => do
    let message := (← requireField block "BROADCAST_OPTION").value
    return some (.whenReceived message (← body scope block.next))
  | .startAsClone => return some (.whenCloned (← body scope block.next))
  | .defineProcedure => procedure body scope block
  | .whenThisSpriteClicked => unsupported scope block
  | .whenStageClicked => unsupported scope block
  | .whenKeyPressed => unsupported scope block
  | .whenBackdropSwitchesTo => unsupported scope block
  | .whenGreaterThan => unsupported scope block

/-- The script that a top-level block starts, if any. -/
def script (scope : Scope) (block : Block) : m (Option Script) :=
  match block.opcode with
  | .hat op => hat body scope block op
  | opcode => do
    note (if opcode.isLoose then .looseBlock opcode else .unknownScript opcode)
    return none

/-- The scripts of a target, given the compiler of chains. -/
def scriptsOf (target : Target) : m (List Script) := do
  let blocks := target.graph.topLevel
  let procedures ← Compiling.attempt (definedProcedures target.graph blocks)
  let found ← Compiling.forAll (script body { target, procedures }) blocks
  return found.filterMap id

end

/-- The scripts of a target. -/
def scripts (target : Target) : Outcome (List Script) := scriptsOf chain target

end ScratchPage.Compile
