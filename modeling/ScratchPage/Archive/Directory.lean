import ScratchPage.Archive
import ScratchPage.Archive.Checksum
import ScratchPage.Archive.Inflate

/-!
# The directory of an archive file

An archive file ends in a directory that lists its entries. The end of the directory is marked by a
record which may be followed by a comment. Each listed entry leads to a record in front of its data.
-/

namespace ScratchPage.Archive
set_option autoImplicit false

/-- An entry as the directory lists it. -/
structure Listed where
  name : String
  encrypted : Bool
  method : Nat
  check : Nat
  packedSize : Nat
  offset : Nat

/-- The directory: where it starts, how many entries it lists, and where the archive itself starts. -/
structure Frame where
  start : Nat
  count : Nat
  base : Nat

def endMark : Nat := 0x06054b50
def listMark : Nat := 0x02014b50
def entryMark : Nat := 0x04034b50

/-- The longest comment after the end record. -/
def longestComment : Nat := 65535

/-- Reads the end record at a position. -/
def frameAt? (data : ByteArray) (position : Nat) : Option Frame := do
  let mark ← numberAt? data position 4
  if mark != endMark then failure
  let count ← numberAt? data (position + 10) 2
  let size ← numberAt? data (position + 12) 4
  let offset ← numberAt? data (position + 16) 4
  if position < size + offset then failure
  return ⟨position - size, count, position - size - offset⟩

/-- The end record nearest to the end of a file. -/
def frame? (data : ByteArray) : Option Frame :=
  (List.range (longestComment + 1)).findSome? fun back =>
    if back + 22 ≤ data.size then frameAt? data (data.size - 22 - back) else none

/-- The upper half of the code page of names that are not marked as Unicode. -/
def upperHalf : List Char :=
  ("ÇüéâäàåçêëèïîìÄÅÉæÆôöòûùÿÖÜ¢£¥₧ƒáíóúñÑªº¿⌐¬½¼¡«»░▒" ++
    "▓│┤╡╢╖╕╣║╗╝╜╛┐└┴┬├─┼╞╟╚╔╩╦╠═╬╧╨╤╥╙╘╒╓╫╪┘┌█▄▌▐▀αß" ++
    "ΓπΣσµτΦΘΩδ∞φε∩≡±≥≤⌠⌡÷≈°∙·√ⁿ²■\u00a0").toList

/-- The character of a byte in that code page. -/
def pageChar (byte : UInt8) : Char :=
  if byte < 128 then Char.ofNat byte.toNat else upperHalf[byte.toNat - 128]?.getD '?'

/-- The text of a name. -/
def nameText (unicode : Bool) (bytes : ByteArray) : String :=
  match unicode, String.fromUTF8? bytes with
  | true, some text => text
  | _, _ => String.ofList (bytes.toList.map pageChar)

/-- Reads a listed entry and where the next one starts. -/
def listedAt? (data : ByteArray) (position : Nat) : Option (Listed × Nat) := do
  let mark ← numberAt? data position 4
  if mark != listMark then failure
  let flags ← numberAt? data (position + 8) 2
  let method ← numberAt? data (position + 10) 2
  let check ← numberAt? data (position + 16) 4
  let packedSize ← numberAt? data (position + 20) 4
  let nameLength ← numberAt? data (position + 28) 2
  let extraLength ← numberAt? data (position + 30) 2
  let commentLength ← numberAt? data (position + 32) 2
  let offset ← numberAt? data (position + 42) 4
  let stop := position + 46 + nameLength
  if data.size < stop then failure
  let name := nameText (flags / 2048 % 2 == 1) (data.extract (position + 46) stop)
  return (⟨name, flags % 2 == 1, method, check, packedSize, offset⟩, stop + extraLength + commentLength)

/-- Reads the listed entries from a position on. -/
def listedFrom? (data : ByteArray) : Nat → Nat → Option (List Listed)
  | 0, _ => some []
  | count + 1, position => do
    let (entry, next) ← listedAt? data position
    let rest ← listedFrom? data count next
    return entry :: rest

/-- The bytes of an entry as they stand in the file. -/
def packed? (data : ByteArray) (base : Nat) (entry : Listed) : Option ByteArray := do
  let position := base + entry.offset
  let mark ← numberAt? data position 4
  if mark != entryMark then failure
  let nameLength ← numberAt? data (position + 26) 2
  let extraLength ← numberAt? data (position + 28) 2
  let start := position + 30 + nameLength + extraLength
  if data.size < start + entry.packedSize then failure
  return data.extract start (start + entry.packedSize)

/-- An entry that can be opened: it is stored or deflated, and not encrypted. -/
def Listed.opens (entry : Listed) : Bool :=
  !entry.encrypted && (entry.method == 0 || entry.method == 8)

/-- The bytes of an entry, which have to match its checksum. -/
def bytes? (data : ByteArray) (base : Nat) (entry : Listed) : Option ByteArray := do
  let packed ← packed? data base entry
  let bytes ← if entry.method == 0 then some packed else Inflate.inflate? packed
  if (Checksum.checksum bytes).toNat == entry.check then return bytes else failure

/-- Reads one entry. -/
def readEntry (data : ByteArray) (base : Nat) (entry : Listed) : Except ArchiveFault Entry :=
  if !entry.opens then
    .error (if entry.name == projectName then .noProject else .damaged "Unsupported archive entry")
  else
    match bytes? data base entry with
    | some bytes => .ok (entry.name, bytes)
    | none => .error (if entry.name == projectName then .projectNotText else .damaged "Invalid checksum")

/-- The entries of an archive file. The project file is read first. -/
def readEntries (data : ByteArray) : Except ArchiveFault (List Entry) :=
  match frame? data with
  | none => .error .notArchive
  | some frame =>
    match listedFrom? data frame.count frame.start with
    | none => .error .notArchive
    | some listed => do
      let (project, others) := listed.partition fun entry => entry.name == projectName
      (project ++ others).mapM (readEntry data frame.base)

end ScratchPage.Archive
