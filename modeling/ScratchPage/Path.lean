/-!
# Paths as text

A path is written as pieces with slashes between them. Empty pieces and single dots stand for the place
reached so far, except that a dot may begin a path.
-/

namespace ScratchPage.Path
set_option autoImplicit false

/-- The pieces of a text between its slashes. -/
def pieces : List Char → List (List Char)
  | [] => [[]]
  | c :: rest =>
    if c = '/' then [] :: pieces rest
    else
      match pieces rest with
      | [] => [[c]]
      | piece :: more => (c :: piece) :: more

/-- Pieces with slashes between them. -/
def join : List (List Char) → List Char
  | [] => []
  | [piece] => piece
  | piece :: more => piece ++ '/' :: join more

/-- A path that does not start at the working directory. -/
def isAbsolute (path : String) : Bool := path.toList.head? == some '/'

/-- Pieces from last to first, without those at the end that name nothing new. -/
def trim : List (List Char) → List (List Char)
  | piece :: before :: rest =>
    if piece = [] || piece = ['.'] then trim (before :: rest) else piece :: before :: rest
  | few => few

/-- The directory that holds what a path names: the path without its last piece, or the working
directory when nothing is left. -/
def parent (path : String) : String :=
  match trim (pieces path.toList).reverse with
  | _ :: before :: rest =>
    match trim (before :: rest) with
    | [[]] => "/"
    | kept => String.ofList (join kept.reverse)
  | _ => "."

/-- One path after another. -/
def append (directory name : String) : String := directory ++ "/" ++ name

/-- A path below the working directory, unless it is absolute. -/
def below (home path : String) : String := if isAbsolute path then path else append home path

end ScratchPage.Path
