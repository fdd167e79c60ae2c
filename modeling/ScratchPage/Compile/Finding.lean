import ScratchPage.Diagnostic
import ScratchPage.Input.Basic
import ScratchPage.Opcode
import ScratchPage.Text.Escape

/-!
# Findings of the compiler

What the compiler notes without stopping. A debug finding says that a neutral value was used; a
warning says that something has no code; an error says that a number was expected.
-/

namespace ScratchPage
set_option autoImplicit false

/-- Something the compiler notes. A choice that is `none` is computed at run time. -/
inductive Finding where
  | missingInput (slot : String) (opcode : Opcode) (block : BlockId)
  | emptyInput (slot : String) (opcode : Opcode) (block : BlockId)
  | notNumeric (kind : LiteralKind) (raw slot : String) (opcode : Opcode) (block : BlockId)
  | unknownValue (opcode : Opcode)
  | unknownCommand (opcode : Opcode)
  | touchingObject (choice : Option String) (block : BlockId)
  | computedKey (block : BlockId)
  | argumentOutside (name neutral : String)
  | pointTowards (choice : Option String) (block : BlockId)
  | destination (opcode : Opcode) (choice : Option String) (block : BlockId)
  | cloneOf (choice : Option String) (block : BlockId)
  | undefinedProcedure (code target : String)
  | looseBlock (opcode : Opcode)
  | unknownScript (opcode : Opcode)
  | unsupportedHat (opcode : Opcode) (target : String)
  | warp (code : String)

namespace Finding

def severity : Finding → Severity
  | .missingInput .. => .debug
  | .emptyInput .. => .debug
  | .notNumeric .. => .error
  | .unknownValue .. => .warning
  | .unknownCommand .. => .warning
  | .touchingObject .. => .warning
  | .computedKey .. => .warning
  | .argumentOutside .. => .debug
  | .pointTowards .. => .warning
  | .destination .. => .warning
  | .cloneOf .. => .warning
  | .undefinedProcedure .. => .warning
  | .looseBlock .. => .debug
  | .unknownScript .. => .warning
  | .unsupportedHat .. => .warning
  | .warp .. => .debug

def message : Finding → String
  | .missingInput slot opcode block =>
    "Input '" ++ slot ++ "' missing on '" ++ opcode.name ++ "' (" ++ block.name ++ "), using null"
  | .emptyInput slot opcode block =>
    "Input '" ++ slot ++ "' empty on '" ++ opcode.name ++ "' (" ++ block.name ++ "), using null"
  | .notNumeric kind raw slot opcode block =>
    "Non-numeric " ++ kind.label ++ " literal " ++ Text.quoted raw ++ " in numeric slot '" ++ slot ++
      "' of '" ++ opcode.name ++ "' (" ++ block.name ++ ")"
  | .unknownValue opcode => "Unknown or unimplemented value block '" ++ opcode.name ++ "'"
  | .unknownCommand opcode => "Unknown or unimplemented block '" ++ opcode.name ++ "'"
  | .touchingObject (some object) block =>
    "Unsupported touching object " ++ Text.quoted object ++ " on '" ++ block.name ++ "'"
  | .touchingObject none block => "Unsupported computed touching object on '" ++ block.name ++ "'"
  | .computedKey block => "Unsupported computed key in sensing_keypressed '" ++ block.name ++ "'"
  | .argumentOutside name neutral =>
    "Argument reporter " ++ Text.quoted name ++ " outside its procedure, using " ++ neutral
  | .pointTowards (some towards) block =>
    "Unsupported point towards target " ++ Text.quoted towards ++ " on '" ++ block.name ++ "'"
  | .pointTowards none block =>
    "Unsupported computed point towards target on '" ++ block.name ++ "'"
  | .destination opcode (some place) block =>
    "Unsupported '" ++ opcode.name ++ "' destination " ++ Text.quoted place ++ " on '" ++ block.name ++ "'"
  | .destination opcode none block =>
    "Unsupported computed '" ++ opcode.name ++ "' destination on '" ++ block.name ++ "'"
  | .cloneOf (some option) block =>
    "Unsupported clone target " ++ Text.quoted option ++ " on '" ++ block.name ++ "'"
  | .cloneOf none block => "Unsupported computed clone target on '" ++ block.name ++ "'"
  | .undefinedProcedure code target =>
    "Call to undefined procedure " ++ Text.quoted code ++ " in '" ++ target ++ "'"
  | .looseBlock opcode => "Skipping loose top-level block '" ++ opcode.name ++ "'"
  | .unknownScript opcode => "Unknown or unimplemented toplevel block '" ++ opcode.name ++ "'"
  | .unsupportedHat opcode target =>
    "Unsupported hat block '" ++ opcode.name ++ "' in '" ++ target ++ "'"
  | .warp code =>
    "Procedure " ++ Text.quoted code ++
      " runs without screen refresh in the editor; compiled with normal yields"

def diagnostic (f : Finding) : Diagnostic := ⟨f.severity, f.message⟩

end Finding

end ScratchPage
