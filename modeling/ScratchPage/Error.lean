import ScratchPage.Input.Basic
import ScratchPage.Json.Writer
import ScratchPage.Opcode

/-!
# Errors

The causes that stop the reading or the compilation of a project, each with its message.
-/

namespace ScratchPage
set_option autoImplicit false

/-- What is wrong with the input of a block. -/
inductive InputFault where
  | notArray (value : Json)
  | tooShort (length : Nat)
  | unknownState (value : Json)
  | noTypeCode (payload : Json)
  | noValue (payload : Json)
  | unknownType (code : Int)
  | unexpectedPayload (payload : Json)
  | noPrototype
  | noProcedureCode
  | notSubstack (payload : Payload)
  | missingMenu
  | notMenu (found : Opcode)

def InputFault.detail : InputFault → String
  | .notArray value => "expected an array, found " ++ value.text
  | .tooShort length => "expected at least 2 elements, found " ++ Json.intText length
  | .unknownState value => "unknown input magic " ++ value.text
  | .noTypeCode payload => "primitive without a type code: " ++ payload.text
  | .noValue payload => "primitive without a value: " ++ payload.text
  | .unknownType code => "unknown primitive type " ++ Json.intText code
  | .unexpectedPayload payload => "unexpected payload " ++ payload.text
  | .noPrototype => "procedure definition without a prototype"
  | .noProcedureCode => "prototype carries no proccode"
  | .notSubstack payload => "substack must reference a block, found " ++ payload.dump
  | .missingMenu => "missing menu input"
  | .notMenu found => "expected a menu block, found '" ++ found.name ++ "'"

/-- What is wrong with the field of a block. -/
inductive FieldFault where
  | notArray (value : Json)
  | missingValue
  | notStrings

def FieldFault.detail : FieldFault → String
  | .notArray value => "expected an array, found " ++ value.text
  | .missingValue => "missing value"
  | .notStrings => "expected a list of strings"

/-- What is wrong with a block. -/
inductive BlockFault where
  | notObject
  | noOpcode
  | inputsNotObject
  | fieldsNotObject

def BlockFault.detail : BlockFault → String
  | .notObject => "is not an object."
  | .noOpcode => "has no opcode."
  | .inputsNotObject => "has a non-object 'inputs'."
  | .fieldsNotObject => "has a non-object 'fields'."

/-- What is wrong with the project as a whole. -/
inductive ProjectFault where
  | syntaxError
  | noTargets
  | noName
  | noStageMark (target : String)
  | blocksNotObject (target : String)
  | block (id : BlockId) (fault : BlockFault)

def ProjectFault.detail : ProjectFault → String
  | .syntaxError => "<json syntax error>"
  | .noTargets => "missing 'targets' array."
  | .noName => "target missing 'name'."
  | .noStageMark target => "target '" ++ target ++ "' missing isStage."
  | .blocksNotObject target => "target '" ++ target ++ "' has a non-object 'blocks'."
  | .block id fault => "block '" ++ id.name ++ "' " ++ fault.detail

/-- A cause that stops a compilation. -/
inductive CompileError where
  | unknownBlock (target : String) (id : BlockId)
  | malformedInput (block : BlockId) (slot : String) (fault : InputFault)
  | malformedField (block : BlockId) (slot : String) (fault : FieldFault)
  | missingField (block : BlockId) (slot : String)
  | malformedProject (fault : ProjectFault)
  | duplicateStage (first second : String)
  | cyclicChain (target : String) (id : BlockId)
  | unknownMathFunction (name : String)
  | unknownKey (key : String)
  | invalidChoice (opcode : Opcode) (field value : String)

/-- The message of an error. -/
def CompileError.message : CompileError → String
  | .unknownBlock target id =>
    "Block '" ++ id.name ++ "' referenced in target '" ++ target ++ "' does not exist."
  | .malformedInput block slot fault =>
    "Malformed input '" ++ slot ++ "' on block '" ++ block.name ++ "': " ++ fault.detail ++ "."
  | .malformedField block slot fault =>
    "Malformed field '" ++ slot ++ "' on block '" ++ block.name ++ "': " ++ fault.detail ++ "."
  | .missingField block slot => "Block '" ++ block.name ++ "' is missing field '" ++ slot ++ "'."
  | .malformedProject fault => "Invalid project.json: " ++ fault.detail
  | .duplicateStage first second =>
    "Duplicate stage target: '" ++ first ++ "' and '" ++ second ++ "' are both marked as stage."
  | .cyclicChain target id =>
    "Cyclic block chain at '" ++ id.name ++ "' in target '" ++ target ++ "'."
  | .unknownMathFunction name => "Unimplemented mathop \"" ++ name ++ "\"."
  | .unknownKey key => "Unknown key: \"" ++ key ++ "\"."
  | .invalidChoice opcode field value =>
    "Invalid " ++ field ++ " field on '" ++ opcode.name ++ "': \"" ++ value ++ "\"."

end ScratchPage
