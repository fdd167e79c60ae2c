import ScratchPage.Block.Basic
import ScratchPage.Input.Decode
import ScratchPage.Json.Reader

/-!
# Reading blocks

The parts of a block are read in a fixed order, and the first fault found is reported: the opcode, the
inputs by slot, the fields by slot, then the signature.
-/

namespace ScratchPage
set_option autoImplicit false

/-- Reads a field: a text, or an array of a value and an id. -/
def Field.ofJson (json : Json) : Except FieldFault Field :=
  match json with
  | .string value => .ok ⟨value, none⟩
  | .array items =>
    match items[0]?.bind Json.plainText? with
    | some value => .ok ⟨value, items[1]?.bind Json.asString?⟩
    | none => .error .missingValue
  | _ => .error (.notArray json)

namespace Signature

/-- A list of texts: an array, the JSON text of an array, or nothing. -/
def textList? (value : Option Json) : Option (List String) :=
  match value with
  | none => some []
  | some .null => some []
  | some (.array items) => items.mapM Json.plainText?
  | some (.string encoded) =>
    match Json.read? encoded with
    | some (.array items) => items.mapM Json.plainText?
    | _ => none
  | some _ => none

/-- A text that says true, in any case of its letters. -/
def saysTrue (text : String) : Bool := text.toList.map Char.toLower == "true".toList

/-- Procedures marked to run without refreshing the screen. -/
def warpOf : Option Json → Bool
  | some (.bool b) => b
  | some (.string s) => saysTrue s
  | _ => false

/-- Reads one of the argument lists. -/
def argumentList (block : BlockId) (mutation : Json) (key : String) :
    Except CompileError (List String) :=
  match textList? (mutation.get? key) with
  | some texts => .ok texts
  | none => .error (.malformedField block ("mutation." ++ key) .notStrings)

/-- Reads the signature from the mutation of a block; a mutation without a procedure code has none. -/
def ofMutation (block : BlockId) (mutation : Option Json) :
    Except CompileError (Option Signature) :=
  match mutation with
  | none => .ok none
  | some json =>
    match (json.get? "proccode").bind Json.asString? with
    | none => .ok none
    | some code => do
      let ids ← argumentList block json "argumentids"
      let names ← argumentList block json "argumentnames"
      return some ⟨code, ids, names, warpOf (json.get? "warp")⟩

end Signature

namespace Block

/-- Reads the inputs of a block in the order of their slots. -/
def readInputs (block : BlockId) : List (String × Json) → Except CompileError (List (String × Input))
  | [] => .ok []
  | (slot, json) :: rest =>
    match Input.ofJson json with
    | .error fault => .error (.malformedInput block slot fault)
    | .ok input => (readInputs block rest).map ((slot, input) :: ·)

/-- Reads the fields of a block in the order of their slots. -/
def readFields (block : BlockId) : List (String × Json) → Except CompileError (List (String × Field))
  | [] => .ok []
  | (slot, json) :: rest =>
    match Field.ofJson json with
    | .error fault => .error (.malformedField block slot fault)
    | .ok field => (readFields block rest).map ((slot, field) :: ·)

/-- The pairs of an optional object. -/
def pairsOf (fault : CompileError) : Option Json → Except CompileError (List (String × Json))
  | none => .ok []
  | some (.object fields) => .ok fields
  | some _ => .error fault

/-- Reads a block. -/
def ofJson (id : BlockId) (json : Json) : Except CompileError Block := do
  let fault (f : BlockFault) : CompileError := .malformedProject (.block id f)
  let some _ := json.asObject? | throw (fault .notObject)
  let some opcode := (json.get? "opcode").bind Json.asString? | throw (fault .noOpcode)
  let inputs ← readInputs id (← pairsOf (fault .inputsNotObject) (json.get? "inputs"))
  let fields ← readFields id (← pairsOf (fault .fieldsNotObject) (json.get? "fields"))
  let signature ← Signature.ofMutation id (json.get? "mutation")
  return {
    id, inputs, fields, signature
    opcode := Opcode.ofName opcode
    next := ((json.get? "next").bind Json.asString?).map BlockId.mk
    topLevel := ((json.get? "topLevel").bind Json.asBool?).getD false
    x := ((json.get? "x").bind Json.asFloat?).getD 0
    y := ((json.get? "y").bind Json.asFloat?).getD 0
    source := json }

end Block

end ScratchPage
