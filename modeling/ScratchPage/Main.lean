import ScratchPage.Archive.Directory
import ScratchPage.Conversion.Command
import ScratchPage.Disk.Walk

/-!
# The command line

Runs the command on the files of the machine.
-/

namespace ScratchPage
set_option autoImplicit false

namespace Machine

/-- Something staged: its absolute path, and the names of the files that were written inside. -/
structure StagedPath where
  path : String
  names : IO.Ref (List String)

/-- Runs an operation and keeps the words of its failure. -/
def attempt {α : Type} (operation : IO α) : IO (Attempt α) := do
  try return .ok (← operation)
  catch e => return .error (toString e)

def succeeds {α : Type} (operation : IO α) : IO Bool := return (← attempt operation).isOk

/-- The absolute form of a path, without dots and links. -/
def realPath (path : String) : IO String := return toString (← IO.FS.realPath path)

def isThere (path : String) : IO Bool := succeeds (realPath path)

def isDirectory (path : String) : IO Bool := succeeds (realPath (Path.append path "."))

def readText (path : String) : IO String := do
  match String.fromUTF8? (← IO.FS.readBinFile path) with
  | some text => return text
  | none => throw (IO.userError "stream did not contain valid UTF-8")

/-- The letters and digits of staged names. -/
def stagedLetters : List Char :=
  "ABCDEFGHIJKLMNOPQRSTUVWXYZabcdefghijklmnopqrstuvwxyz0123456789".toList

/-- A path for something staged in a directory. -/
def stagedIn (directory : String) : IO StagedPath := do
  let home := toString (← IO.currentDir)
  let letters ← (List.range 6).mapM fun _ => do
    return stagedLetters[← IO.rand 0 (stagedLetters.length - 1)]?.getD '0'
  return ⟨Path.append (Path.below home directory) (".sb3js-" ++ String.ofList letters), ← IO.mkRef []⟩

def stageFile (directory : String) : IO StagedPath := do
  let staged ← stagedIn directory
  let _ ← IO.FS.Handle.mk staged.path .writeNew
  return staged

def stageDirectory (directory : String) : IO StagedPath := do
  let staged ← stagedIn directory
  IO.FS.createDir staged.path
  return staged

def writeInside (staged : StagedPath) (name : String) (bytes : ByteArray) : IO Unit := do
  if Disk.canName name then
    IO.FS.writeBinFile (Path.append staged.path name) bytes
    staged.names.modify (·.insert name)
  else throw (IO.userError "invalid file name")

/-- Takes away what is left of something staged, if there is anything. -/
def takeAway (staged : StagedPath) : IO Unit := do
  let _ ← attempt
    (if ← isDirectory staged.path then IO.FS.removeDirAll staged.path else IO.FS.removeFile staged.path)

instance : Host IO StagedPath where
  say line := do (← IO.getStderr).putStrLn line
  isThere := isThere
  isFile path := return (← isThere path) && !(← isDirectory path)
  isDirectory := isDirectory
  canonical path := attempt (realPath path)
  readText path := attempt (readText path)
  readEntries path := do
    match ← attempt (IO.FS.readBinFile path) with
    | .ok data => return Archive.readEntries data
    | .error _ => return .error .unreadable
  createDirectories path := attempt (IO.FS.createDirAll path)
  stageFile directory := attempt (stageFile directory)
  writeStaged staged bytes := attempt (IO.FS.writeBinFile staged.path bytes)
  stageDirectory directory := attempt (stageDirectory directory)
  writeInside staged name bytes := attempt (writeInside staged name bytes)
  stagedNames staged := attempt staged.names.get
  stagedPath staged name := return .ok (Path.append staged.path name)
  moveFile staged path := attempt (IO.FS.rename staged.path path)
  moveDirectory staged path := attempt (IO.FS.rename staged.path path)
  moveStaged staged name path :=
    attempt (IO.FS.rename (Path.append staged.path name) (Path.append path name))
  discard := takeAway

end Machine

/-- What the command line tells about itself. -/
def helpText : String := "\n".intercalate [
  "Compile a Scratch 3 project (.sb3) into a standalone JavaScript page.",
  "",
  "Usage: scratchpage [OPTIONS] <INPUT> [OUTPUT]",
  "",
  "Arguments:",
  "  <INPUT>   ",
  "  [OUTPUT]  Directory that receives index.html and the project assets. [default: output]",
  "",
  "Options:",
  "      --template <TEMPLATE>  HTML template to use instead of the built-in page. " ++
    "Every ##code## marker is replaced.",
  "      --emit-js <EMIT_JS>    Also write the generated JavaScript on its own to this path.",
  "  -v, --verbose              Log debug diagnostics.",
  "  -h, --help                 Print help"]

/-- What is wrong with a command line, in a sentence. -/
def UsageError.message : UsageError → String
  | .missingInput => "the following required arguments were not provided: <INPUT>"
  | .unknownArgument => "unexpected argument found"
  | .invalidValue => "a value is required but none was supplied"
  | .repeated => "an argument cannot be used multiple times"
  | .unexpectedValue => "unexpected value for a flag"
  | .help => helpText

/-- An error with the error of the project behind it. -/
def ConversionError.report (e : ConversionError) : String :=
  match e.cause? with
  | some cause => "Error: " ++ e.message ++ "\n\nCaused by:\n    " ++ cause.message
  | none => "Error: " ++ e.message

end ScratchPage

open ScratchPage in
/-- Runs the command that the arguments ask for. -/
def main (arguments : List String) : IO UInt32 := do
  match Arguments.read arguments with
  | .error .help =>
    IO.println helpText
    return 0
  | .error e =>
    IO.eprintln ("error: " ++ e.message)
    return 2
  | .ok arguments =>
    match ← (Conversion.command arguments : Conversion.ConversionT IO Unit).run with
    | .ok () => return 0
    | .error e =>
      IO.eprintln e.report
      return 1
