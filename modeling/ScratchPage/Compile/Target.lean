import ScratchPage.Code.Descriptor
import ScratchPage.Compile.Script
import ScratchPage.Project

/-!
# Compiling targets and projects

A target becomes a descriptor. The page measures positions from the upper left corner of its stage and
directions anticlockwise from the right, so both are converted. The code of a project is the code of
the stage followed by that of the sprites.
-/

namespace ScratchPage
set_option autoImplicit false

/-- A direction of the editor as the page counts it, above zero whenever one turn allows it. -/
def pageDirection {α : Type} [Sub α] [OfNat α 90] [OfNat α 450] (positive : α → Bool)
    (direction : α) : α :=
  if positive (90 - direction) then 90 - direction else 450 - direction

/-- The direction of the page for a direction of the editor. -/
def runtimeDirection (direction : Float) : Float := pageDirection (fun d => decide (0 < d)) direction

namespace Compile

/-- The descriptor of a target with its scripts. -/
def descriptor (target : Target) (scripts : List Script) : Descriptor :=
  let costumes := Json.array (target.costumes.map Costume.toJson)
  let vars := target.vars.map fun v => (v.id, v.value)
  let lists := target.lists.map fun l => (l.id, Json.array l.items)
  if target.isStage then
    { name := target.name, x := 240, y := 180, size := 100, direction := 0
      costumes, currentCostume := target.currentCostume, rotationStyle := "all around"
      vars := .object [], lists := .object [], isStage := true, visible := true
      globalVariables := vars, globalLists := lists, scripts }
  else
    { name := target.name, x := 240 + target.x, y := 180 - target.y, size := target.size
      direction := runtimeDirection target.direction
      costumes, currentCostume := target.currentCostume, rotationStyle := target.rotationStyle
      vars := .object vars, lists := .object lists, isStage := false
      visible := target.visible, globalVariables := [], globalLists := [], scripts }

/-- Compiles a target. -/
def target (t : Target) : Outcome Descriptor := do
  return descriptor t (← scripts t)

end Compile

namespace Project

/-- The targets in the order of the code: the stage first. -/
def inCodeOrder (project : Project) : List Target :=
  project.targets.filter (·.isStage) ++ project.targets.filter (!·.isStage)

/-- Compiles a project. -/
def compile (project : Project) : Outcome String := do
  let descriptors ← Compiling.forAll Compile.target project.inCodeOrder
  return String.join (descriptors.map Descriptor.code)

end Project

end ScratchPage
