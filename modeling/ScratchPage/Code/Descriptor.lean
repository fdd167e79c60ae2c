import ScratchPage.Code.Script

/-!
# Descriptors

What the page is told about a target: how it starts and the function that registers its scripts. The
variables and lists of the stage belong to all targets and are published before its descriptor.
-/

namespace ScratchPage
set_option autoImplicit false

/-- A target as the page sees it. -/
structure Descriptor where
  name : String
  x : Float
  y : Float
  size : Float
  direction : Float
  costumes : Json
  currentCostume : Int
  rotationStyle : String
  vars : Json
  lists : Json
  isStage : Bool
  visible : Bool
  globalVariables : List (String × Json)
  globalLists : List (String × Json)
  scripts : List Script

namespace Descriptor

/-- A boolean in code. -/
def flag (b : Bool) : String := if b then "true" else "false"

/-- The level at which scripts stand. -/
def scriptLevel : Nat := 3

/-- The lines that publish values under their ids. -/
def globalLines (store : String) (values : List (String × Json)) : List Line :=
  values.map fun (id, value) =>
    .plain (store ++ ".set(" ++ Code.quoted id ++ ", " ++ Code.data value ++ ");")

/-- The arguments that describe how a target starts. -/
def arguments (d : Descriptor) : List Code :=
  [Code.quoted d.name, Code.number d.x, Code.number d.y, Code.number d.size,
   Code.number d.direction, Code.data d.costumes, Code.integer d.currentCostume,
   Code.quoted d.rotationStyle, Code.data d.vars, Code.data d.lists, flag d.isStage]

/-- The lines before the scripts. -/
def headLines (d : Descriptor) : List Line :=
  globalLines "globalVariables" d.globalVariables ++ globalLines "globalLists" d.globalLists ++
  [.opening "targets.push(\x7b", .opening "ctor: await createSpriteConstructor("] ++
  d.arguments.map (fun a => .plain (a ++ ",")) ++ [.opening "function(isClone) \x7b"]

/-- The lines of the scripts. -/
def scriptLines (d : Descriptor) : List Line := d.scripts.flatMap Script.lines

/-- The lines after the scripts. -/
def tailLines (d : Descriptor) : List Line :=
  [.closing "\x7d", .closing "),", .plain ("visible: " ++ flag d.visible ++ ","), .closing "\x7d);"]

/-- The code of the scripts alone. -/
def scriptCode (d : Descriptor) : String := ((Writer.start scriptLevel).writeAll d.scriptLines).text

/-- The code that announces a target to the page. -/
def code (d : Descriptor) : String :=
  ((Writer.start 0).writeAll (d.headLines ++ d.scriptLines ++ d.tailLines)).text

end Descriptor

end ScratchPage
