import ScratchPage.Code.Fragment

/-!
# Indented text

Code is written line by line. A line that opens a group indents the lines after it and a line that
closes a group stands back at the level of the opening line.
-/

namespace ScratchPage
set_option autoImplicit false

/-- A line of code by what it does to the indentation. -/
inductive Line where
  | plain (code : Code)
  | opening (code : Code)
  | closing (code : Code)
  /-- Closes a group and opens the next one. -/
  | switching (code : Code)
  /-- A comment in place of code. -/
  | remark (text : String)

/-- The lines written so far and the level of the next one. -/
structure Writer where
  lines : Array String
  level : Nat
deriving DecidableEq, Repr

namespace Writer

/-- A writer without lines. -/
def start (level : Nat) : Writer := ⟨#[], level⟩

/-- The blanks in front of a line. -/
def indentation (level : Nat) : String := String.ofList (List.replicate (4 * level) ' ')

/-- Writes text at the current level. -/
def put (w : Writer) (text : String) : Writer :=
  { w with lines := w.lines.push (indentation w.level ++ text) }

def indent (w : Writer) : Writer := { w with level := w.level + 1 }

def outdent (w : Writer) : Writer := { w with level := w.level - 1 }

/-- Writes a line. -/
def write (w : Writer) : Line → Writer
  | .plain code => w.put code.text
  | .opening code => (w.put code.text).indent
  | .closing code => w.outdent.put code.text
  | .switching code => (w.outdent.put code.text).indent
  | .remark text => w.put ("// " ++ Text.commentText text)

/-- Writes lines in order. -/
def writeAll (w : Writer) (lines : List Line) : Writer := lines.foldl write w

/-- The text of all lines, each with a line break. -/
def text (w : Writer) : String := w.lines.foldl (fun s line => s ++ line ++ "\n") ""

end Writer

end ScratchPage
