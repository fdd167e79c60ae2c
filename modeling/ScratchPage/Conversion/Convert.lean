import ScratchPage.Compile.Target
import ScratchPage.Conversion.Error
import ScratchPage.Conversion.Host
import ScratchPage.Conversion.Progress
import ScratchPage.Path
import ScratchPage.Template

/-!
# Conversion of archives

An archive becomes an output directory with a page and its assets and, if asked for, a file with the
generated code. Everything is staged next to its place before anything is moved.
-/

namespace ScratchPage
set_option autoImplicit false

/-- What to convert, and where to. -/
structure ConversionOptions where
  input : String
  output : String
  template : Option String
  emitCode : Option String
deriving DecidableEq, Repr

/-- The name of the page inside an output directory. -/
def pageName : String := "index.html"

/-- The number of stages of a conversion. -/
def ConversionOptions.stageCount (options : ConversionOptions) : Nat :=
  if options.emitCode.isSome then 6 else 5

namespace Conversion

variable {m : Type → Type} {σ α : Type} [Monad m] [Host m σ]

/-- A step of a conversion. -/
abbrev ConversionT (m : Type → Type) (α : Type) := ExceptT ConversionError m α

/-- Runs an operation of the host; a failure stops the conversion with the given error. -/
def demand (error : String → ConversionError) (operation : m (Attempt α)) : ConversionT m α := do
  match ← operation with
  | .ok a => return a
  | .error words => throw (error words)

/-- Takes over a result. -/
def accept {ε : Type} (error : ε → ConversionError) : Except ε α → ConversionT m α
  | .ok a => return a
  | .error e => throw (error e)

/-- Runs a step and then discards what was staged, whether the step failed or not. -/
def discarding (staged : σ) (step : ConversionT m α) : ConversionT m α := ExceptT.mk do
  let result ← step.run
  Host.discard staged
  return result

/-- Announces a stage. -/
def announce (options : ConversionOptions) (stage : Stage) : ConversionT m Unit :=
  (Host.say (stage.line options.stageCount) : m Unit)

/-- The absolute form of the path of the input, which has to be a file. -/
def inputLabel (path : String) : ConversionT m String := do
  if ← (Host.isFile path : m Bool) then demand .inputUnresolved (Host.canonical path)
  else throw (.inputNotFound path)

/-- The text of the template. -/
def templateText : Option String → ConversionT m String
  | some path => demand (fun _ => .templateUnreadable path) (Host.readText path)
  | none => return Template.standard

/-- The archive at a path. -/
def readArchive (path label : String) : ConversionT m Archive := do
  let entries ← (Host.readEntries path : m (Except ArchiveFault (List Entry)))
  accept (.badArchive label) (entries.bind Archive.ofEntries)

/-- Writes the page and the assets into a staged directory. -/
def fill (staged : σ) (document : String) (assets : List Asset) : ConversionT m Unit := do
  demand .pageNotWritten (Host.writeInside staged pageName document.toUTF8)
  assets.forM fun asset =>
    demand (fun _ => .assetNotWritten asset.fileName) (Host.writeInside staged asset.fileName asset.bytes)

/-- Moves a filled directory to the output path. If a directory is there already, it takes over the files
one at a time, in the order in which the host lists them. -/
def settle (staged : σ) (output : String) : ConversionT m Unit := do
  if ← (Host.isThere output : m Bool) then
    if ← (Host.isDirectory output : m Bool) then
      let names ← demand .filesUnlisted (Host.stagedNames staged)
      names.forM fun name => do
        let path ← demand .filesUnlisted (Host.stagedPath staged name)
        demand (fun _ => .fileNotMoved path) (Host.moveStaged staged name output)
    else throw (.outputNotDirectory output)
  else demand (fun _ => .outputNotMoved output) (Host.moveDirectory staged output)

/-- Puts a page and its assets into the output directory. -/
def publish (output document : String) (assets : List Asset) : ConversionT m Unit := do
  let parent := Path.parent output
  demand (fun _ => .parentNotCreated parent) (Host.createDirectories parent)
  let staged ← demand (fun _ => .nothingStaged parent) (Host.stageDirectory parent)
  discarding staged do
    fill staged document assets
    settle staged output

/-- Puts a page, its assets and the file with its code into their places. -/
def publishWithCode (options : ConversionOptions) (path code document : String) (assets : List Asset) :
    ConversionT m Unit := do
  let staged ← demand (fun _ => .codeNotStaged path) (Host.stageFile (Path.parent path))
  discarding staged do
    demand (fun _ => .codeNotStaged path) (Host.writeStaged staged code.toUTF8)
    announce options .writing
    publish options.output document assets
    announce options .emitting
    demand (fun _ => .codeNotWritten path) (Host.moveFile staged path)

/-- Converts an archive and returns the findings. -/
def convert (options : ConversionOptions) : ConversionT m Log := do
  announce options .resolving
  let label ← inputLabel options.input
  let template ← templateText options.template
  announce options .reading
  let archive ← readArchive options.input label
  announce options .parsing
  let project ← accept (.invalidProject label) (Project.ofText archive.project)
  announce options .compiling
  let outcome := project.compile
  let code ← accept (.notCompiled label) outcome.result
  let selection := Selection.ofEntries archive.entries
  let document := Template.render template code
  match options.emitCode with
  | some path => publishWithCode options path code document selection.assets
  | none =>
    announce options .writing
    publish options.output document selection.assets
  return outcome.raised ++ selection.log

end Conversion

end ScratchPage
