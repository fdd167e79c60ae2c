import ScratchPage.Compile.Target
import ScratchPage.Template

/-!
# Pages from project files

The text of a project file becomes code and, with a template, a page.
-/

namespace ScratchPage
set_option autoImplicit false

/-- Where a conversion stopped. -/
inductive Phase where
  | reading
  | compiling
deriving DecidableEq, Repr

/-- What stopped a conversion. -/
structure Failure where
  phase : Phase
  cause : CompileError

/-- What a failed conversion of a project file was doing. -/
def Phase.context : Phase → String
  | .reading => "Failed to read project.json."
  | .compiling => "Compilation aborted."

/-- The code of a project with the findings raised for it. -/
structure Compiled where
  code : String
  log : Log

/-- Compiles the text of a project file. -/
def compileText (source : String) : Except Failure Compiled :=
  match Project.ofText source with
  | .error e => .error ⟨.reading, e⟩
  | .ok project =>
    let outcome := project.compile
    match outcome.result with
    | .error e => .error ⟨.compiling, e⟩
    | .ok code => .ok ⟨code, outcome.raised⟩

/-- A page with its code and the findings raised for it. -/
structure Page where
  document : String
  code : String
  log : Log

/-- Converts the text of a project file into a page. -/
def convertText (source template : String) : Except Failure Page :=
  (compileText source).map fun compiled =>
    ⟨Template.render template compiled.code, compiled.code, compiled.log⟩

end ScratchPage
