import ScratchPage.Conversion.Host
import ScratchPage.Disk.Walk

/-!
# Conversions on a disk

A disk in a setting is a host. The setting decides what the disk does not show: where relative paths start,
in which order names are listed, and which operations break off. Only questions are always answered, and what
is discarded is gone.
-/

namespace ScratchPage
set_option autoImplicit false

/-- What surrounds a disk. -/
structure Setting where
  /-- The names on the way from the root to the working directory. -/
  home : List String
  /-- The order in which the names in a directory are listed. -/
  order : List String → List String
  order_perm : ∀ names, (order names).Perm names
  /-- The operations that break off, by the number of operations before them, each with the number of its
  parts that are done by then: bytes of a file, or steps along a path. -/
  fault : Nat → Option Nat

/-- A setting in which no operation breaks off, and names are listed as they come. -/
def Setting.calm (home : List String) : Setting := ⟨home, id, fun _ => .refl _, fun _ => none⟩

/-- A disk during a conversion, with the number of operations so far and the lines shown. -/
structure Session where
  disk : Disk
  clock : Nat
  shown : List String

/-- Work on a disk in a setting. -/
abbrev SessionM := ReaderT Setting (StateM Session)

/-- Something staged on a disk: its location, and the path of the directory that holds it. -/
structure Staged where
  location : Location
  parent : String

namespace Session

/-- What a disk says when it cannot do something. -/
def refused : String := "Operation not possible"

/-- Asks about the disk. -/
def ask {α : Type} (question : Setting → Disk → α) : SessionM α := fun setting s =>
  (question setting s.disk, s)

/-- Tries an operation. One that breaks off leaves what its first parts did to the disk. -/
def attempt {α : Type} (act : Setting → Disk → Option α × Disk) (partly : Setting → Nat → Disk → Disk) :
    SessionM (Attempt α) := fun setting s =>
  match setting.fault s.clock with
  | some parts => (.error refused, ⟨partly setting parts s.disk, s.clock + 1, s.shown⟩)
  | none =>
    match act setting s.disk with
    | (some a, disk) => (.ok a, ⟨disk, s.clock + 1, s.shown⟩)
    | (none, disk) => (.error refused, ⟨disk, s.clock + 1, s.shown⟩)

/-- Reads from the disk if that is possible. -/
def inspect {α : Type} (question : Setting → Disk → Option α) : SessionM (Attempt α) :=
  attempt (fun setting disk => (question setting disk, disk)) fun _ _ disk => disk

/-- Changes the disk if the change is possible, as a whole or not at all. -/
def change {α : Type} (act : Setting → Disk → Option (α × Disk)) : SessionM (Attempt α) :=
  attempt
    (fun setting disk =>
      match act setting disk with
      | some (a, after) => (some a, after)
      | none => (none, disk))
    fun _ _ disk => disk

/-- Writes a file whose name is possible. -/
def write (location : Location) (possible : Bool) (bytes : ByteArray) : SessionM (Attempt Unit) :=
  attempt
    (fun _ disk => if possible then (some (), disk.put location (.file bytes)) else (none, disk))
    fun _ parts disk => if possible then disk.put location (.file (bytes.extract 0 parts)) else disk

/-- The text of a file. -/
def textAt? (disk : Disk) (home : List String) (path : String) : Option String :=
  match disk.look? home path with
  | some (.file bytes) => String.fromUTF8? bytes
  | _ => none

/-- The entries of an archive file. -/
def entriesAt (disk : Disk) (home : List String) (path : String) : Except ArchiveFault (List Entry) :=
  match disk.look? home path with
  | some (.archive entries) => .ok entries
  | some (.file _) => .error .notArchive
  | _ => .error .unreadable

/-- Stages an item in a directory. -/
def stage (path : String) (item : Item) : SessionM (Attempt Staged) :=
  change fun setting disk => (disk.directory? setting.home path).map fun directory =>
    let location := disk.freshLocation directory
    (⟨location, path⟩, disk.put location item)

/-- Moves a file to a location unless a directory stands there. -/
def moveOnto (disk : Disk) (source target : Location) : Option Disk :=
  if disk.isDirectory target then none else some (disk.replace source target)

/-- Moves a directory to a location where nothing stands. -/
def moveWhole (disk : Disk) (source target : Location) : Option Disk :=
  if (disk.item? target).isSome then none else some (disk.move source target)

/-- The path of a file inside something staged. -/
def pathInside (home : List String) (staged : Staged) (name : String) : String :=
  let own := (staged.location.head?.map Disk.nameText).getD ""
  let parent := Path.below (Disk.pathOf (Disk.locationOf home)) staged.parent
  Path.append (Path.append parent own) name

instance : Host SessionM Staged where
  say line := fun _ s => ((), { s with shown := s.shown ++ [line] })
  isThere path := ask fun setting disk => (disk.look? setting.home path).isSome
  isFile path := ask fun setting disk =>
    match disk.look? setting.home path with
    | some .directory => false
    | some _ => true
    | none => false
  isDirectory path := ask fun setting disk => (disk.directory? setting.home path).isSome
  canonical path := inspect fun setting disk => (disk.locate? setting.home path).map Disk.pathOf
  readText path := inspect fun setting disk => textAt? disk setting.home path
  readEntries path := fun setting s =>
    match inspect (fun setting disk => some (entriesAt disk setting.home path)) setting s with
    | (.ok entries, s) => (entries, s)
    | (.error _, s) => (.error .unreadable, s)
  createDirectories path :=
    attempt
      (fun setting disk =>
        let (done, after) := disk.createDirectories setting.home path
        (if done then some () else none, after))
      fun setting parts disk => (disk.createFirst setting.home path parts).2
  stageFile path := stage path (.file .empty)
  writeStaged staged bytes := write staged.location true bytes
  stageDirectory path := stage path .directory
  writeInside staged name bytes := write (.plain name :: staged.location) (Disk.canName name) bytes
  stagedNames staged := inspect fun setting disk => some (setting.order (disk.namesIn staged.location))
  stagedPath staged name := inspect fun setting _ => some (pathInside setting.home staged name)
  moveFile staged path := change fun setting disk =>
    ((disk.place? setting.home path).bind (moveOnto disk staged.location)).map fun moved => ((), moved)
  moveDirectory staged path := change fun setting disk =>
    ((disk.place? setting.home (Disk.withoutSlashes path)).bind (moveWhole disk staged.location)).map
      fun moved => ((), moved)
  moveStaged staged name path := change fun setting disk =>
    (((disk.directory? setting.home path).map (.plain name :: ·)).bind
      (moveOnto disk (.plain name :: staged.location))).map fun moved => ((), moved)
  discard staged := fun _ s => ((), { s with disk := s.disk.erase staged.location })

/-- Runs a conversion step on a disk: its result, the disk afterwards and the lines shown. -/
def run {ε α : Type} (setting : Setting) (disk : Disk) (step : ExceptT ε SessionM α) :
    Except ε α × Disk × List String :=
  let (result, s) := step.run setting ⟨disk, 0, []⟩
  (result, s.disk, s.shown)

end Session

end ScratchPage
