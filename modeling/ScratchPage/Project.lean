import ScratchPage.Target

/-!
# Projects

A project is a list of targets of which at most one is the stage.
-/

namespace ScratchPage
set_option autoImplicit false

structure Project where
  targets : List Target

namespace Project

/-- Reads targets in order, given the name of the stage found before them. -/
def readTargets (stage : Option String) : List Json → Except CompileError (List Target)
  | [] => .ok []
  | json :: rest => do
    let target ← Target.ofJson json
    if target.isStage then
      match stage with
      | some first => throw (.duplicateStage first target.name)
      | none => return target :: (← readTargets (some target.name) rest)
    else return target :: (← readTargets stage rest)

/-- Reads a project. -/
def ofJson (json : Json) : Except CompileError Project :=
  match (json.get? "targets").bind Json.asArray? with
  | some targets => (readTargets none targets).map Project.mk
  | none => .error (.malformedProject .noTargets)

/-- Reads a project from the text of its file. -/
def ofText (source : String) : Except CompileError Project :=
  match Json.read? source with
  | some json => ofJson json
  | none => .error (.malformedProject .syntaxError)

end Project

end ScratchPage
