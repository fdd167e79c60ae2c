import ScratchPage.Input.Basic
import ScratchPage.Json.Basic
import ScratchPage.Opcode

/-!
# Blocks

A block has an opcode, inputs and fields by slot, and perhaps a block after it. Blocks that define or
call a procedure carry its signature.
-/

namespace ScratchPage
set_option autoImplicit false

/-- A value chosen in a block, with the id of the variable, list or message it names. -/
structure Field where
  value : String
  id : Option String
deriving DecidableEq, Repr

/-- The key under which a variable or list is kept at run time. -/
def Field.storeKey (field : Field) : String := field.id.getD field.value

/-- The name of a procedure and its arguments. -/
structure Signature where
  code : String
  argumentIds : List String
  argumentNames : List String
  warp : Bool
deriving DecidableEq, Repr

/-- A block of a project. -/
structure Block where
  id : BlockId
  opcode : Opcode
  inputs : List (String × Input)
  fields : List (String × Field)
  next : Option BlockId
  topLevel : Bool
  x : Float
  y : Float
  signature : Option Signature
  source : Json

namespace Block

def input? (block : Block) (slot : String) : Option Input := Keyed.find? block.inputs slot

def field? (block : Block) (slot : String) : Option Field := Keyed.find? block.fields slot

/-- The blocks that a block refers to: the next one, then by slot each input and its shadow. -/
def references (block : Block) : List BlockId :=
  block.next.toList ++ block.inputs.flatMap fun (_, input) =>
    match input.blockId? with
    | some id => id :: (input.shadow.bind Payload.blockId?).toList
    | none => []

end Block

end ScratchPage
