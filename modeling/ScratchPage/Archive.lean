import ScratchPage.Asset.Select
import ScratchPage.Text.Keyed

/-!
# Archives

A project archive holds the text of a project file and further entries.
-/

namespace ScratchPage
set_option autoImplicit false

/-- The contents of a project archive: the project file, and the other entries in the order of their
names. -/
structure Archive where
  project : String
  entries : List Entry

/-- Why a file is no project archive. -/
inductive ArchiveFault where
  | unreadable
  | notArchive
  | noProject
  | projectNotText
  | damaged (words : String)
deriving DecidableEq, Repr

/-- The message about a file that is no project archive. -/
def ArchiveFault.message (label : String) : ArchiveFault → String
  | .unreadable => "Failed to open '" ++ label ++ "'."
  | .notArchive => "'" ++ label ++ "' is not a valid zip/.sb3 file."
  | .noProject => "project.json not found in '" ++ label ++ "'."
  | .projectNotText => "project.json in '" ++ label ++ "' is not valid UTF-8."
  | .damaged words => words

namespace Archive

def projectName : String := "project.json"

/-- An entry that stands for a directory. -/
def isDirectoryName (name : String) : Bool := name.toList.getLast? == some '/'

/-- Takes the project file out of the entries of an archive and leaves out its directories. Of several
entries with one name the last one counts. -/
def ofEntries (entries : List Entry) : Except ArchiveFault Archive :=
  let sorted := Keyed.ofList entries
  match Keyed.find? sorted projectName with
  | none => .error .noProject
  | some bytes =>
    match String.fromUTF8? bytes with
    | none => .error .projectNotText
    | some project =>
      .ok ⟨project, sorted.filter fun e => e.1 != projectName && !isDirectoryName e.1⟩

end Archive

end ScratchPage
