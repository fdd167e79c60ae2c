import ScratchPage.Block.Decode
import ScratchPage.Block.Graph

/-!
# Targets

A target is the stage or a sprite: its place and look, its variables and lists, and its blocks.
Everything but the name, the stage mark and the blocks has a default.
-/

namespace ScratchPage
set_option autoImplicit false

/-- A picture that a target can show. -/
structure Costume where
  name : String
  assetId : String
  file : String
  format : String
  centerX : Float
  centerY : Float
  resolution : Option Float

/-- A variable with its first value. -/
structure Variable where
  id : String
  name : String
  value : Json

/-- A list with its first items. -/
structure ListVariable where
  id : String
  name : String
  items : List Json

/-- The stage or a sprite. -/
structure Target where
  name : String
  isStage : Bool
  x : Float
  y : Float
  size : Float
  direction : Float
  rotationStyle : String
  visible : Bool
  costumes : List Costume
  currentCostume : Int
  vars : List Variable
  lists : List ListVariable
  graph : Graph

namespace Costume

/-- A text field of a costume; an absent one is empty. -/
def textField (json : Json) (key : String) : String := ((json.get? key).bind Json.asString?).getD ""

def ofJson (json : Json) : Costume :=
  let assetId := textField json "assetId"
  let format := textField json "dataFormat"
  { name := textField json "name"
    assetId, format
    file := ((json.get? "md5ext").bind Json.asString?).getD (assetId ++ "." ++ format)
    centerX := ((json.get? "rotationCenterX").bind Json.asFloat?).getD 0
    centerY := ((json.get? "rotationCenterY").bind Json.asFloat?).getD 0
    resolution := (json.get? "bitmapResolution").bind Json.asFloat? }

/-- A costume as the page describes it. -/
def toJson (c : Costume) : Json :=
  let resolution := match c.resolution with
    | some r => [("bitmapResolution", Json.ofFloat r)]
    | none => []
  .object ([("assetId", .string c.assetId)] ++ resolution ++
    [("dataFormat", .string c.format), ("md5ext", .string c.file), ("name", .string c.name),
     ("rotationCenterX", Json.ofFloat c.centerX), ("rotationCenterY", Json.ofFloat c.centerY)])

/-- The costumes of a target. -/
def listOf (json : Option Json) : List Costume := ((json.bind Json.asArray?).getD []).map ofJson

end Costume

/-- The declarations in an object of arrays, each as id, name and array; others are skipped. -/
def declarations (json : Option Json) : List (String × String × List Json) :=
  ((json.bind Json.asObject?).getD []).filterMap fun (id, declaration) =>
    declaration.asArray?.map fun items => (id, (items[0]?.bind Json.asString?).getD "", items)

/-- The variables of a target; one without a value starts at zero. -/
def Variable.listOf (json : Option Json) : List Variable :=
  (declarations json).map fun (id, name, items) => ⟨id, name, (items[1]?).getD (.number (.int 0))⟩

/-- The lists of a target; one without items starts empty. -/
def ListVariable.listOf (json : Option Json) : List ListVariable :=
  (declarations json).map fun (id, name, items) => ⟨id, name, (items[1]?.bind Json.asArray?).getD []⟩

namespace Target

/-- Reads blocks in the order of their ids. Loose readings of variables and lists are stored as arrays
and do nothing, so they are left out. -/
def readBlocks : List (String × Json) → Except CompileError (List Block)
  | [] => .ok []
  | (_, .array _) :: rest => readBlocks rest
  | (id, json) :: rest =>
    match Block.ofJson ⟨id⟩ json with
    | .error e => .error e
    | .ok block => (readBlocks rest).map (block :: ·)

/-- Reads a target and checks the references between its blocks. -/
def ofJson (json : Json) : Except CompileError Target := do
  let some name := (json.get? "name").bind Json.asString? | throw (.malformedProject .noName)
  let some isStage := (json.get? "isStage").bind Json.asBool?
    | throw (.malformedProject (.noStageMark name))
  let pairs ← Block.pairsOf (.malformedProject (.blocksNotObject name)) (json.get? "blocks")
  let graph : Graph := ⟨name, ← readBlocks pairs⟩
  graph.resolve
  return {
    name, isStage, graph
    x := ((json.get? "x").bind Json.asFloat?).getD 0
    y := ((json.get? "y").bind Json.asFloat?).getD 0
    size := ((json.get? "size").bind Json.asFloat?).getD 100
    direction := ((json.get? "direction").bind Json.asFloat?).getD 90
    rotationStyle := ((json.get? "rotationStyle").bind Json.asString?).getD "all around"
    visible := ((json.get? "visible").bind Json.asBool?).getD true
    costumes := Costume.listOf (json.get? "costumes")
    currentCostume := ((json.get? "currentCostume").bind Json.asInt64?).getD 0
    vars := Variable.listOf (json.get? "variables")
    lists := ListVariable.listOf (json.get? "lists") }

end Target

end ScratchPage
