import ScratchPage.Archive

/-!
# Hosts

A host offers the operations on files and the output lines that a conversion needs. Paths are texts as
they were given. What is staged stands under a name of its own until it is moved into place or discarded.
-/

namespace ScratchPage
set_option autoImplicit false

/-- The outcome of an operation of a host; a failure carries the words of the host. -/
abbrev Attempt (α : Type) := Except String α

/-- The operations of a host. The parameter `σ` stands for what is staged. -/
class Host (m : Type → Type) (σ : outParam Type) where
  /-- Shows a line to the user. -/
  say : String → m Unit
  /-- Something stands at the end of a path. -/
  isThere : String → m Bool
  isFile : String → m Bool
  isDirectory : String → m Bool
  /-- The absolute form of a path, without dots and links. -/
  canonical : String → m (Attempt String)
  readText : String → m (Attempt String)
  /-- The entries of an archive file. -/
  readEntries : String → m (Except ArchiveFault (List Entry))
  /-- Creates a directory and those around it. -/
  createDirectories : String → m (Attempt Unit)
  /-- Stages an empty file in a directory. -/
  stageFile : String → m (Attempt σ)
  /-- Writes a staged file. -/
  writeStaged : σ → ByteArray → m (Attempt Unit)
  /-- Stages an empty directory in a directory. -/
  stageDirectory : String → m (Attempt σ)
  /-- Writes a file inside a staged directory. -/
  writeInside : σ → String → ByteArray → m (Attempt Unit)
  /-- The names of the files in a staged directory, in the order in which the host lists them. -/
  stagedNames : σ → m (Attempt (List String))
  /-- The path of a file that is listed in a staged directory. -/
  stagedPath : σ → String → m (Attempt String)
  /-- Moves a staged file to a path. -/
  moveFile : σ → String → m (Attempt Unit)
  /-- Moves a staged directory to a path. -/
  moveDirectory : σ → String → m (Attempt Unit)
  /-- Moves a file of a staged directory into a directory, under its own name. -/
  moveStaged : σ → String → String → m (Attempt Unit)
  /-- Takes away what is left of something staged. -/
  discard : σ → m Unit

end ScratchPage
