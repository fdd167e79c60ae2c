import ScratchPage.Asset.Md5
import ScratchPage.Diagnostic

/-!
# Assets of an archive

An entry of an archive is an asset when its name ends in a dot and one of the asset extensions, without
regard to case. Its file name is its name with every slash written as an underscore. An asset named by
its content hash is checked against its content.
-/

namespace ScratchPage
set_option autoImplicit false

/-- A named run of bytes inside an archive. -/
abbrev Entry := String × ByteArray

/-- A file that accompanies a page. -/
structure Asset where
  fileName : String
  bytes : ByteArray

namespace Asset

def extensions : List String := ["svg", "png", "jpg", "jpeg", "bmp", "gif", "wav", "mp3"]

/-- A character equals a lower-case letter or digit under simple case folding. The long s is the only
character beyond ASCII that folds to a letter of an extension. -/
def foldsTo (letter c : Char) : Bool := c.toLower == letter || (letter == 's' && c == 'ſ')

/-- A text equals a lower-case text under simple case folding. -/
def foldsToAll : List Char → List Char → Bool
  | [], [] => true
  | letter :: letters, c :: cs => foldsTo letter c && foldsToAll letters cs
  | _, _ => false

/-- A name ends in a dot and the given extension. -/
def hasExtension (name : List Char) (ending : String) : Bool :=
  let dotted := '.' :: ending.toList
  foldsToAll dotted (name.drop (name.length - dotted.length))

/-- The name of an entry is that of an asset. -/
def isName (name : String) : Bool := extensions.any (hasExtension name.toList)

/-- The name of the file that holds an entry. -/
def flatten (name : String) : String := name.map fun c => if c = '/' then '_' else c

/-- The part of a file name before its last dot. -/
def stem? (fileName : List Char) : Option (List Char) :=
  match fileName.reverse.dropWhile (· != '.') with
  | [] => none
  | _ :: rest => some rest.reverse

def isHexDigit (c : Char) : Bool := c.isDigit || ('a' ≤ c && c ≤ 'f') || ('A' ≤ c && c ≤ 'F')

/-- The content hash that a file name promises: a stem of thirty-two hexadecimal digits. -/
def promisedHash? (fileName : String) : Option (List Char) :=
  (stem? fileName.toList).filter fun stem => stem.length == 32 && stem.all isHexDigit

/-- The asset of an entry. -/
def select? (entry : Entry) : Option Asset :=
  if isName entry.1 then some ⟨flatten entry.1, entry.2⟩ else none

/-- The finding on an entry whose content differs from the hash that its file name promises. -/
def hashFinding? (entry : Entry) : Option Diagnostic :=
  (promisedHash? (flatten entry.1)).bind fun promised =>
    let actual := Md5.hash entry.2
    if promised.map Char.toLower = actual.toList then none
    else
      some ⟨.warning,
        "Asset '" ++ entry.1 ++ "' does not match its md5 name (content hash " ++ actual ++ ")"⟩

/-- The finding on an entry, if there is one. -/
def finding? (entry : Entry) : Option Diagnostic :=
  if isName entry.1 then hashFinding? entry
  else some ⟨.warning, "Skipping non-asset archive entry '" ++ entry.1 ++ "'"⟩

end Asset

/-- Assets with the findings raised for them. -/
structure Selection where
  assets : List Asset
  log : Log

/-- The assets among the entries of an archive, in the order of the entries. -/
def Selection.ofEntries (entries : List Entry) : Selection where
  assets := entries.filterMap Asset.select?
  log := entries.filterMap Asset.finding?

end ScratchPage
