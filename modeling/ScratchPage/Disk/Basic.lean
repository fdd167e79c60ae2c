import ScratchPage.Asset.Select
import ScratchPage.Path
import ScratchPage.Text.Keyed

/-!
# Disks

A disk holds directories, files and archives below one root. It is a list of locations with what stands
there; a location lists its names from the innermost outwards, and the empty location is the root itself.
-/

namespace ScratchPage
set_option autoImplicit false

/-- A name inside a directory. Staged names are those of things that are not yet in their place; no path
spells one. -/
inductive Name where
  | plain (text : String)
  | staged (serial : Nat)
deriving DecidableEq, Repr

/-- A place below the root. -/
abbrev Location := List Name

/-- What stands at a location. -/
inductive Item where
  | directory
  | file (bytes : ByteArray)
  | archive (entries : List Entry)

/-- All that stands below a root. -/
structure Disk where
  items : List (Location × Item)

namespace Disk

def empty : Disk := ⟨[]⟩

/-- What stands at a location; the root is always there. -/
def item? (disk : Disk) : Location → Option Item
  | [] => some .directory
  | location => (disk.items.find? fun e => e.1 == location).map (·.2)

def isDirectory (disk : Disk) (location : Location) : Bool :=
  match disk.item? location with
  | some .directory => true
  | _ => false

/-- Puts an item at a location in place of what stood there. -/
def put (disk : Disk) (location : Location) (item : Item) : Disk :=
  ⟨(location, item) :: disk.items.filter fun e => e.1 != location⟩

/-- Takes away a location and everything below it. -/
def erase (disk : Disk) (location : Location) : Disk :=
  ⟨disk.items.filter fun e => !location.isSuffixOf e.1⟩

/-- Carries a location below one place over to another place. -/
def rebase (source target : Location) : Location → Location
  | [] => if source = [] then target else []
  | name :: outer => if name :: outer = source then target else name :: rebase source target outer

/-- Moves a location and everything below it to a place where nothing stands. -/
def move (disk : Disk) (source target : Location) : Disk :=
  ⟨disk.items.map fun e => (rebase source target e.1, e.2)⟩

/-- Moves a file to a place, in place of the file that may stand there. -/
def replace (disk : Disk) (source target : Location) : Disk := (disk.erase target).move source target

/-- A bound on the serial of a name. -/
def serialBound : Name → Nat
  | .plain _ => 0
  | .staged serial => serial + 1

/-- A serial that no staged name of a disk has. -/
def freshSerial (disk : Disk) : Nat :=
  disk.items.foldl (fun bound e => e.1.foldl (fun b name => max b (serialBound name)) bound) 0

/-- A new staged location inside a directory. -/
def freshLocation (disk : Disk) (directory : Location) : Location :=
  .staged disk.freshSerial :: directory

/-- The text of a name. -/
def nameText : Name → String
  | .plain text => text
  | .staged _ => ".sb3js-*"

/-- The absolute path of a location; that of the root is empty. -/
def pathOf : Location → String
  | [] => ""
  | name :: outer => Path.append (pathOf outer) (nameText name)

/-- The location of a directory that is given by the names on the way to it from the root. -/
def locationOf (names : List String) : Location := names.reverse.map .plain

/-- The names of the files and directories in a directory, each once. -/
def namesIn (disk : Disk) (directory : Location) : List String :=
  (disk.items.filterMap fun e =>
    match e.1 with
    | .plain name :: outer => if outer = directory then some name else none
    | _ => none).eraseDups

/-- The path of a location from a directory around it, with a slash at the end of a directory. -/
def listedPath (inner : Location) (item : Item) : String :=
  let path := "/".intercalate (inner.reverse.map nameText)
  match item with
  | .directory => path ++ "/"
  | _ => path

/-- The files and directories below a directory in the order of their paths, each with the bytes of a
file. -/
def listing (disk : Disk) (directory : Location) : List (String × Option ByteArray) :=
  Keyed.ofList (disk.items.filterMap fun e =>
    let inner := e.1.take (e.1.length - directory.length)
    if inner ++ directory = e.1 && inner != [] then
      match e.2 with
      | .directory => some (listedPath inner e.2, none)
      | .file bytes => some (listedPath inner e.2, some bytes)
      | .archive _ => none
    else none)

end Disk

end ScratchPage
