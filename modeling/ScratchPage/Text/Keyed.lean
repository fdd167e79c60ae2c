/-!
# Association lists sorted by text

Objects of a project file and entries of an archive are kept as lists of pairs in strictly increasing
order of their keys. The order of strings is the order of their code points, which is also the order
of their UTF-8 bytes. Of several pairs with one key the last one counts.
-/

namespace ScratchPage.Keyed
set_option autoImplicit false

variable {α : Type}

/-- Adds a pair unless its key is already there. -/
def insertNew (key : String) (value : α) : List (String × α) → List (String × α)
  | [] => [(key, value)]
  | (k, v) :: rest =>
    if key < k then (key, value) :: (k, v) :: rest
    else if key = k then (k, v) :: rest
    else (k, v) :: insertNew key value rest

/-- The pairs in the order of their keys, the last one of each key. -/
def ofList : List (String × α) → List (String × α)
  | [] => []
  | (k, v) :: rest => insertNew k v (ofList rest)

/-- The value under a key. -/
def find? (pairs : List (String × α)) (key : String) : Option α :=
  (pairs.find? fun p => p.1 == key).map (·.2)

end ScratchPage.Keyed
