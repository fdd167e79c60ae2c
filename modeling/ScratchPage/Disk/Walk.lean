import ScratchPage.Disk.Basic

/-!
# Walks along paths

A path is walked piece by piece, from the root or from the working directory. Every piece but the last has
to lead to a directory; the last one may name nothing yet.
-/

namespace ScratchPage
set_option autoImplicit false

/-- One step of a walk. -/
inductive Step where
  | stay
  | up
  | down (name : String)
deriving DecidableEq, Repr

namespace Step

/-- The step that a piece of a path asks for. -/
def ofPiece (piece : List Char) : Step :=
  if piece = [] || piece = ['.'] then .stay
  else if piece = ['.', '.'] then .up
  else .down (String.ofList piece)

def isDown : Step → Bool
  | .down _ => true
  | _ => false

end Step

namespace Disk

/-- The longest name in bytes. -/
def longestName : Nat := 255

/-- A name that a directory can hold. -/
def canName (name : String) : Bool := name.utf8ByteSize ≤ longestName && !name.toList.contains '\x00'

/-- A path that can be walked: it is not empty and holds no NUL character. -/
def isWalkable (path : String) : Bool := !path.isEmpty && !path.toList.contains '\x00'

def steps (path : String) : List Step := (Path.pieces path.toList).map Step.ofPiece

/-- The steps along a path from the root. A path that is not absolute starts at the working directory. -/
def route (home : List String) (path : String) : List Step :=
  if Path.isAbsolute path then steps path else home.map .down ++ steps path

/-- Where a step leads from a directory; the root is its own parent. -/
def enter? (here : Location) : Step → Option Location
  | .stay => some here
  | .up => some here.tail
  | .down name => if canName name then some (.plain name :: here) else none

/-- Follows steps; each of them starts from a directory. -/
def walk (disk : Disk) (here : Location) : List Step → Option Location
  | [] => some here
  | step :: rest =>
    if disk.isDirectory here then (enter? here step).bind fun there => disk.walk there rest else none

/-- The location that a path names, whether or not something stands there. -/
def locate? (disk : Disk) (home : List String) (path : String) : Option Location :=
  if isWalkable path then disk.walk [] (route home path) else none

/-- What stands at the end of a path. -/
def look? (disk : Disk) (home : List String) (path : String) : Option Item :=
  (disk.locate? home path).bind disk.item?

/-- The directory that a path names. -/
def directory? (disk : Disk) (home : List String) (path : String) : Option Location :=
  (disk.locate? home path).filter disk.isDirectory

/-- Follows steps and creates the directories that are missing. What was created before a failure
stays. -/
def create (disk : Disk) (here : Location) : List Step → Bool × Disk
  | [] => (true, disk)
  | step :: rest =>
    match enter? here step with
    | none => (false, disk)
    | some there =>
      match disk.item? there with
      | some .directory => disk.create there rest
      | some _ => (false, disk)
      | none => (disk.put there .directory).create there rest

/-- Creates the directories that are missing at the first steps along a path. A path that is not absolute
needs a working directory. -/
def createFirst (disk : Disk) (home : List String) (path : String) (count : Nat) : Bool × Disk :=
  if isWalkable path && (Path.isAbsolute path || disk.isDirectory (locationOf home)) then
    disk.create [] ((route home path).take count)
  else (false, disk)

/-- Creates a directory and those around it. -/
def createDirectories (disk : Disk) (home : List String) (path : String) : Bool × Disk :=
  disk.createFirst home path (route home path).length

/-- Puts a file or an archive at the end of a path whose directory is there. -/
def write (disk : Disk) (home : List String) (path : String) (item : Item) : Option Disk :=
  (disk.locate? home path).map fun location => disk.put location item

/-- A path without the slashes at its end. -/
def withoutSlashes (path : String) : String :=
  String.ofList (path.toList.reverse.dropWhile (· == '/')).reverse

/-- The location for something that is moved to a path, which has to end in a name. -/
def place? (disk : Disk) (home : List String) (path : String) : Option Location :=
  if ((steps path).getLast?.map Step.isDown).getD false then disk.locate? home path else none

end Disk

end ScratchPage
