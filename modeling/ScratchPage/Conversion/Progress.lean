import ScratchPage.Json.Writer

/-!
# Progress lines

A conversion announces each of its stages with a line that ends in a bar.
-/

namespace ScratchPage
set_option autoImplicit false

/-- The stages of a conversion, in their order. -/
inductive Stage where
  | resolving
  | reading
  | parsing
  | compiling
  | writing
  | emitting
deriving DecidableEq, Repr

namespace Stage

def label : Stage → String
  | .resolving => "Resolving input path"
  | .reading => "Reading archive"
  | .parsing => "Parsing project.json"
  | .compiling => "Compiling targets"
  | .writing => "Writing output"
  | .emitting => "Writing generated JavaScript"

/-- The place of a stage, counted from one. -/
def number : Stage → Nat
  | .resolving => 1
  | .reading => 2
  | .parsing => 3
  | .compiling => 4
  | .writing => 5
  | .emitting => 6

end Stage

/-- The number of cells of a progress bar. -/
def barWidth : Nat := 14

/-- A bar whose filled part is the nearest to the part of the stages that is reached. -/
def progressBar (step total : Nat) : String :=
  let filled := (step * barWidth + total / 2) / total
  "[" ++ String.ofList ((List.range barWidth).map fun i => if i < filled then '=' else '-') ++ "]"

/-- The line that announces a stage. -/
def Stage.line (stage : Stage) (total : Nat) : String :=
  "[Convert] " ++ stage.label ++ "... (" ++ Json.intText stage.number ++ "/" ++ Json.intText total ++ ") " ++
    progressBar stage.number total

end ScratchPage
