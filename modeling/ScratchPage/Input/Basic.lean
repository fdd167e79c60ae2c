import ScratchPage.Text.Dump

/-!
# Inputs of blocks

A slot of a block holds nothing, a literal, another block, or a direct reading of a variable or list.
A block that was dropped onto a slot may cover what the slot showed before; the covered content is the
shadow of the input.
-/

namespace ScratchPage
set_option autoImplicit false

/-- The name of a block inside its target. -/
structure BlockId where
  name : String
deriving DecidableEq, Repr

/-- What a literal was meant to be. -/
inductive LiteralKind where
  | number
  | positiveNumber
  | positiveInteger
  | integer
  | angle
  | color
  | string
  | broadcast
deriving DecidableEq, Repr

namespace LiteralKind

/-- The kind with a given code in project files. -/
def ofCode? (code : Int) : Option LiteralKind :=
  if code = 4 then some .number
  else if code = 5 then some .positiveNumber
  else if code = 6 then some .positiveInteger
  else if code = 7 then some .integer
  else if code = 8 then some .angle
  else if code = 9 then some .color
  else if code = 10 then some .string
  else if code = 11 then some .broadcast
  else none

/-- The kind as messages name it. -/
def label : LiteralKind → String
  | .number => "Number"
  | .positiveNumber => "PositiveNumber"
  | .positiveInteger => "PositiveInteger"
  | .integer => "Integer"
  | .angle => "Angle"
  | .color => "Color"
  | .string => "String"
  | .broadcast => "Broadcast"

/-- Literals of this kind are numbers. -/
def isNumeric : LiteralKind → Bool
  | .number => true
  | .positiveNumber => true
  | .positiveInteger => true
  | .integer => true
  | .angle => true
  | .color => false
  | .string => false
  | .broadcast => false

end LiteralKind

/-- What a slot holds. -/
inductive Payload where
  | empty
  | literal (kind : LiteralKind) (raw : String)
  | block (id : BlockId)
  | variable (name : String) (id : Option String)
  | list (name : String) (id : Option String)
deriving DecidableEq, Repr

/-- A slot's content with the content it covers. Only blocks cover anything. -/
structure Input where
  payload : Payload
  shadow : Option Payload := none
deriving DecidableEq, Repr

namespace Payload

/-- The content as messages show it. -/
def dump : Payload → String
  | .empty => "Empty"
  | .literal kind raw => "Literal \x7b kind: " ++ kind.label ++ ", raw: " ++ Text.dump raw ++ " \x7d"
  | .block id => "Block \x7b id: " ++ Text.dump id.name ++ " \x7d"
  | .variable name id =>
    "Variable \x7b name: " ++ Text.dump name ++ ", id: " ++ Text.dumpOption id ++ " \x7d"
  | .list name id => "List \x7b name: " ++ Text.dump name ++ ", id: " ++ Text.dumpOption id ++ " \x7d"

/-- The block that a slot refers to. -/
def blockId? : Payload → Option BlockId
  | .block id => some id
  | _ => none

end Payload

/-- The block that an input refers to. -/
def Input.blockId? (input : Input) : Option BlockId := input.payload.blockId?

end ScratchPage
