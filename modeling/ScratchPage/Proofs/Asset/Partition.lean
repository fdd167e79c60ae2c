import Mathlib.Data.List.Forall2
import ScratchPage.Proofs.Conversion.Publication
import ScratchPage.Proofs.Disk.Tree
import ScratchPage.Proofs.Text.Bytes
import ScratchPage.Proofs.Text.Keyed

/-!
# Every entry is an asset or is skipped

The extension is looked for in the name of an entry, slashes are replaced in all of it, and the stem that may
promise a hash ends at the last dot of the result. Each entry makes exactly one asset or one warning that it
is skipped, and a second kind of warning stands only where a promised hash is wrong. A name with an extension
is longer than a dot or two, and without slashes it is one piece of a path, so a file of that name is a child
of the directory it is put into (`ofEntries_partitions`).
-/

namespace ScratchPage
set_option autoImplicit false

namespace Asset

/-! ## Extensions -/

/-- The simple case folding of a character as far as it leads into ASCII. Beyond the capital letters only the
long s and the sign for kelvin do. -/
def foldCase (c : Char) : Char :=
  if c = 'ſ' then 's' else if c = '\u212a' then 'k' else c.toLower

/-- The folded name ends in a dot and one of the extensions. -/
def EndsInExtension (name : String) : Prop :=
  ∃ ending ∈ extensions, '.' :: ending.toList <:+ name.toList.map foldCase

/-- The letters that only ASCII letters and the long s fold to. -/
def IsFolded (letter : Char) : Prop := letter ≠ 'ſ' ∧ letter ≠ '\u212a' ∧ letter ≠ 'k'

/-- The test of a letter accepts exactly the characters that fold to it. -/
theorem foldsTo_iff {letter c : Char} (folded : IsFolded letter) : foldsTo letter c = true ↔ foldCase c = letter := by
  obtain ⟨notLong, notKelvin, notK⟩ := folded
  unfold foldsTo foldCase
  split_ifs with long kelvin
  · subst long
    have same : 'ſ'.toLower = 'ſ' := by decide
    simp only [same, beq_eq_false_iff_ne.2 (Ne.symm notLong), Bool.false_or, beq_self_eq_true, Bool.and_true,
      beq_iff_eq]
    exact eq_comm
  · subst kelvin
    have same : '\u212a'.toLower = '\u212a' := by decide
    simp [same, Ne.symm notKelvin, Ne.symm notK]
  · simp [long]

/-- The test of a word accepts exactly the texts that fold to it, character by character. -/
theorem foldsToAll_iff {letters cs : List Char} (folded : ∀ letter ∈ letters, IsFolded letter) :
    foldsToAll letters cs = true ↔ cs.map foldCase = letters := by
  induction letters generalizing cs with
  | nil => cases cs <;> simp [foldsToAll]
  | cons letter letters ih =>
    cases cs with
    | nil => simp [foldsToAll]
    | cons c cs =>
      rw [List.forall_mem_cons] at folded
      rw [foldsToAll, Bool.and_eq_true, foldsTo_iff folded.1, ih folded.2, List.map_cons, List.cons.injEq]

theorem isFolded_extension : ∀ ending ∈ extensions, ∀ letter ∈ '.' :: ending.toList, IsFolded letter := by
  simp [extensions, IsFolded]

theorem isName_iff {name : String} : isName name = true ↔ EndsInExtension name := by
  rw [isName, List.any_eq_true]
  refine exists_congr fun ending => and_congr_right fun mem => ?_
  rw [hasExtension, foldsToAll_iff (isFolded_extension ending mem), List.suffix_iff_eq_drop, List.length_map,
    List.map_drop, eq_comm]

/-- An extension has at least three letters. -/
theorem length_of_isName {name : String} (isName : isName name = true) : 4 ≤ name.toList.length := by
  obtain ⟨ending, mem, suffix⟩ := isName_iff.1 isName
  have short := suffix.length_le
  have long : ∀ ending ∈ extensions, 4 ≤ ('.' :: ending.toList).length := by decide
  rw [List.length_map] at short
  exact (long ending mem).trans short

/-! ## Promised hashes -/

/-- The stem of the file name, which ends at its last dot, is a hash in hexadecimal digits. -/
structure Promises (fileName : String) (stem : List Char) : Prop where
  ends : ∃ ending, fileName.toList = stem ++ '.' :: ending ∧ '.' ∉ ending
  length : stem.length = 32
  digits : ∀ c ∈ stem, isHexDigit c = true

/-- The file name of an entry promises a hash that is not that of its content, whatever the case of the
digits. -/
def BreaksPromise (entry : Entry) : Prop :=
  ∃ stem, Promises (flatten entry.1) stem ∧
    stem.map Char.toLower ≠ (Md5.hash entry.2).toList.map Char.toLower

/-- A stem is what stands before the last dot. -/
theorem stem?_eq_some_iff {cs stem : List Char} :
    stem? cs = some stem ↔ ∃ ending, cs = stem ++ '.' :: ending ∧ '.' ∉ ending := by
  unfold stem?
  constructor
  · intro found
    have whole := List.takeWhile_append_dropWhile (p := (· != '.')) (l := cs.reverse)
    split at found
    · cases found
    next dot rest split =>
      cases found
      have isDot : dot = '.' := by
        have head := List.head_dropWhile_not (· != '.') (l := cs.reverse) (by simp [split])
        simpa [split] using head
      subst isDot
      refine ⟨(cs.reverse.takeWhile (· != '.')).reverse, ?_, fun mem => ?_⟩
      · rw [split] at whole
        simpa using congrArg List.reverse whole.symm
      · have other := List.mem_takeWhile_imp (List.mem_reverse.1 mem)
        simp at other
  · rintro ⟨ending, rfl, none⟩
    have front : ∀ c ∈ ending.reverse, (c != '.') = true := by
      intro c mem
      rw [bne_iff_ne]
      rintro rfl
      exact none (List.mem_reverse.1 mem)
    rw [List.reverse_append, List.reverse_cons, List.append_assoc, List.dropWhile_append_of_pos front]
    simp

theorem promisedHash?_eq_some_iff {fileName : String} {stem : List Char} :
    promisedHash? fileName = some stem ↔ Promises fileName stem := by
  rw [promisedHash?, Option.filter_eq_some_iff, stem?_eq_some_iff, Bool.and_eq_true, beq_iff_eq, List.all_eq_true]
  exact ⟨fun ⟨ends, length, digits⟩ => ⟨ends, length, digits⟩, fun ⟨ends, length, digits⟩ => ⟨ends, length, digits⟩⟩

/-- A hash is written in lower case. -/
theorem toLower_hash (data : ByteArray) : (Md5.hash data).toList.map Char.toLower = (Md5.hash data).toList := by
  have digit : ∀ n < 16, (Nat.digitChar n).toLower = Nat.digitChar n := by decide
  have byte : ∀ b : UInt8, (Md5.hexByte b).map Char.toLower = Md5.hexByte b := by
    intro b
    have high := digit (b.toNat / 16) (by have := b.toNat_lt; omega)
    have low := digit (b.toNat % 16) (Nat.mod_lt _ (by decide))
    rw [Md5.hexByte, List.map_cons, List.map_singleton, high, low]
  have word : ∀ w : UInt32, (Md5.hexWord w).map Char.toLower = Md5.hexWord w := by
    intro w
    simp only [Md5.hexWord, List.map_flatMap, byte]
  simp only [Md5.hash, String.toList_ofList, List.map_append, word]

theorem hashFinding?_of_breaks {entry : Entry} (breaks : BreaksPromise entry) :
    hashFinding? entry = some ⟨.warning, "Asset '" ++ entry.1 ++ "' does not match its md5 name (content hash " ++
      Md5.hash entry.2 ++ ")"⟩ := by
  obtain ⟨stem, promises, other⟩ := breaks
  rw [toLower_hash] at other
  rw [hashFinding?, promisedHash?_eq_some_iff.2 promises, Option.bind_some]
  exact if_neg other

theorem hashFinding?_of_keeps {entry : Entry} (keeps : ¬ BreaksPromise entry) : hashFinding? entry = none := by
  cases promised : promisedHash? (flatten entry.1) with
  | none => rw [hashFinding?, promised, Option.bind_none]
  | some stem =>
    rw [hashFinding?, promised, Option.bind_some]
    refine if_pos (Decidable.not_not.1 fun other => keeps ⟨stem, promisedHash?_eq_some_iff.1 promised, ?_⟩)
    rwa [toLower_hash]

/-! ## One entry -/

/-- What becomes of an entry: the assets that it makes and what is raised for it. -/
inductive Treated : Entry → List Asset × Log → Prop
  | skipped {name : String} {bytes : ByteArray} : ¬ EndsInExtension name →
      Treated (name, bytes) ([], [⟨.warning, "Skipping non-asset archive entry '" ++ name ++ "'"⟩])
  | taken {name : String} {bytes : ByteArray} : EndsInExtension name → ¬ BreaksPromise (name, bytes) →
      Treated (name, bytes) ([⟨flatten name, bytes⟩], [])
  | doubted {name : String} {bytes : ByteArray} : EndsInExtension name → BreaksPromise (name, bytes) →
      Treated (name, bytes) ([⟨flatten name, bytes⟩],
        [⟨.warning, "Asset '" ++ name ++ "' does not match its md5 name (content hash " ++ Md5.hash bytes ++ ")"⟩])

/-- The selection treats each entry in one of the three ways. -/
theorem treated (entry : Entry) : Treated entry ((select? entry).toList, (finding? entry).toList) := by
  obtain ⟨name, bytes⟩ := entry
  unfold select? finding?
  split_ifs with named
  · by_cases breaks : BreaksPromise (name, bytes)
    · rw [hashFinding?_of_breaks breaks]
      exact .doubted (isName_iff.1 named) breaks
    · rw [hashFinding?_of_keeps breaks]
      exact .taken (isName_iff.1 named) breaks
  · exact .skipped fun ends => named (isName_iff.2 ends)

/-! ## File names -/

theorem not_mem_flatten (name : String) : '/' ∉ (flatten name).toList := by
  rw [flatten, String.toList_map, List.mem_map]
  rintro ⟨c, -, same⟩
  split at same
  · cases same
  next other => exact other same

end Asset

namespace Path

theorem below_of_no_slash {fileName : String} (none : '/' ∉ fileName.toList) (directory : String) :
    below directory fileName = append directory fileName := by
  have relative : isAbsolute fileName = false := by
    rw [isAbsolute, beq_eq_false_iff_ne]
    exact fun slash => none (List.mem_of_head? slash)
  rw [below, relative, if_neg (by decide)]

theorem toList_append (directory fileName : String) :
    (append directory fileName).toList = directory.toList ++ '/' :: fileName.toList := by
  simp [append]

end Path

namespace Disk

/-- One name that a directory may hold, whatever its length and its characters. -/
structure IsPiece (fileName : String) : Prop where
  noSlash : '/' ∉ fileName.toList
  notEmpty : fileName ≠ ""
  notHere : fileName ≠ "."
  notAbove : fileName ≠ ".."

variable {fileName : String}

theorem IsPiece.ofPiece_eq (piece : IsPiece fileName) : Step.ofPiece fileName.toList = .down fileName := by
  have apart : ∀ text : String, fileName ≠ text → fileName.toList ≠ text.toList :=
    fun text other same => other (String.toList_inj.1 same)
  have stays : ¬ (fileName.toList = [] || fileName.toList = ['.']) = true := by
    simpa using ⟨piece.notEmpty, apart "." piece.notHere⟩
  have goesUp : fileName.toList ≠ ['.', '.'] := apart ".." piece.notAbove
  rw [Step.ofPiece, if_neg stays, if_neg goesUp, String.ofList_toList]

/-- A name below a directory is one step further down. -/
theorem IsPiece.steps_below (piece : IsPiece fileName) (directory : String) :
    steps (Path.below directory fileName) = steps directory ++ [.down fileName] := by
  rw [steps, Path.below_of_no_slash piece.noSlash, Path.toList_append, Path.pieces_slash,
    Path.pieces_of_no_slash piece.noSlash, List.map_append, List.map_singleton, piece.ofPiece_eq, steps]

/-- A path to a name below a directory can be walked unless one of the two has a null character. -/
theorem IsPiece.isWalkable_below (piece : IsPiece fileName) (directory : String) :
    isWalkable (Path.below directory fileName) =
      (!directory.toList.contains '\x00' && !fileName.toList.contains '\x00') := by
  have filled : (Path.append directory fileName).isEmpty = false := by
    rw [String.isEmpty_eq_false_iff, ne_eq, ← String.toList_eq_nil_iff, Path.toList_append]
    simp
  rw [Path.below_of_no_slash piece.noSlash, isWalkable, filled, Path.toList_append]
  simp

/-- A path with the empty text before its first slash starts at the root. -/
def orRoot (directory : String) : String := if directory = "" then "/" else directory

/-- The root can be walked to, so an empty directory forbids nothing. -/
theorem isWalkable_orRoot (directory : String) :
    isWalkable (orRoot directory) = !directory.toList.contains '\x00' := by
  unfold orRoot
  split
  next empty =>
    subst empty
    decide
  next some => simp [isWalkable, some]

/-- The way to a name below a directory is the way to the directory and one step further down. -/
theorem IsPiece.walk_route_below (piece : IsPiece fileName) (disk : Disk) (home : List String)
    (directory : String) :
    disk.walk [] (route home (Path.below directory fileName)) =
      (disk.walk [] (route home (orRoot directory))).bind fun here => disk.walk here [.down fileName] := by
  have steps_below := piece.steps_below directory
  rw [Path.below_of_no_slash piece.noSlash] at steps_below ⊢
  unfold orRoot
  split
  next empty =>
    subst empty
    have absolute : Path.isAbsolute (Path.append "" fileName) = true := by
      simp [Path.isAbsolute, Path.toList_append]
    rw [route, absolute, if_pos rfl, steps_below, walk_append]
    rfl
  next some =>
    have same : Path.isAbsolute (Path.append directory fileName) = Path.isAbsolute directory := by
      rw [Path.isAbsolute, Path.toList_append, List.head?_append_of_ne_nil _ (by simpa using some),
        Path.isAbsolute]
    rw [route, route, same, steps_below, ← walk_append]
    split
    · rfl
    · rw [List.append_assoc]

/-- What a name below a directory names is a child of the directory, under just that name. -/
theorem IsPiece.locate?_below (piece : IsPiece fileName) (disk : Disk) (home : List String)
    (directory : String) :
    disk.locate? home (Path.below directory fileName) =
      if canName fileName then (disk.directory? home (orRoot directory)).map (.plain fileName :: ·)
      else none := by
  rw [locate?, piece.isWalkable_below, piece.walk_route_below, directory?, locate?, isWalkable_orRoot]
  cases nul : fileName.toList.contains '\x00' with
  | true =>
    have refused : canName fileName = false := by rw [canName, nul, Bool.not_true, Bool.and_false]
    simp [refused]
  | false =>
    rw [Bool.not_false, Bool.and_true]
    cases !directory.toList.contains '\x00' with
    | false => simp
    | true =>
      cases disk.walk [] (route home (orRoot directory)) with
      | none => simp
      | some here =>
        cases inside : disk.isDirectory here <;> cases named : canName fileName <;>
          simp [walk, enter?, Option.filter_some, inside, named]

end Disk

namespace Asset

/-- A file of this name, in whichever directory, is a child of it and not the page. -/
structure IsOwnFile (fileName : String) : Prop where
  noSlash : '/' ∉ fileName.toList
  notHere : fileName ≠ "."
  notAbove : fileName ≠ ".."
  notPage : fileName ≠ "index.html"
  steps : ∀ directory, Disk.steps (Path.below directory fileName) = Disk.steps directory ++ [.down fileName]
  located : ∀ (disk : Disk) (home : List String) (directory : String),
    disk.locate? home (Path.below directory fileName) =
      if Disk.canName fileName then
        (disk.directory? home (Disk.orRoot directory)).map (.plain fileName :: ·)
      else none

/-- A flattened name has the letters of an extension, so it is too long for a dot or two and is one step down.
-/
theorem isOwnFile_flatten {name : String} (named : isName name = true) : IsOwnFile (flatten name) := by
  have long : 4 ≤ (flatten name).toList.length := by
    rw [flatten, String.toList_map, List.length_map]
    exact length_of_isName named
  have apart : ∀ text : String, text.toList.length < 4 → flatten name ≠ text := by
    rintro text short rfl
    omega
  have piece : Disk.IsPiece (flatten name) :=
    ⟨not_mem_flatten name, apart "" (by decide), apart "." (by decide), apart ".." (by decide)⟩
  refine ⟨piece.noSlash, piece.notHere, piece.notAbove, fun same => ?_, piece.steps_below, piece.locate?_below⟩
  cases (Conversion.isName_of_flatten same).symm.trans named

/-- The entries of an archive are a map in the order of the bytes of their names. One after the other, each
of them makes one asset with its bytes if its name ends in an extension, and a warning that it is skipped
otherwise; what else is raised is one warning for each asset whose name breaks the promise of a hash. A file
of an asset's name is a child of the directory it is put into, and not the page. -/
theorem ofEntries_partitions (pairs : List Entry) :
    (Keyed.ofList pairs).Pairwise (fun a b => Text.bytes a.1 < Text.bytes b.1) ∧
    (∀ entry, entry ∈ Keyed.ofList pairs ↔ Keyed.LastUnder pairs entry) ∧
    (∃ parts, List.Forall₂ Treated (Keyed.ofList pairs) parts ∧
      (Selection.ofEntries (Keyed.ofList pairs)).assets = parts.flatMap (·.1) ∧
      (Selection.ofEntries (Keyed.ofList pairs)).log = parts.flatMap (·.2)) ∧
    ∀ asset ∈ (Selection.ofEntries (Keyed.ofList pairs)).assets, IsOwnFile asset.fileName := by
  refine ⟨?_, fun entry => Keyed.mem_ofList_iff, ?_, ?_⟩
  · exact (Keyed.pairwise_ofList pairs).imp Text.bytes_lt_iff.2
  · generalize Keyed.ofList pairs = entries
    refine ⟨entries.map fun entry => ((select? entry).toList, (finding? entry).toList), ?_, ?_, ?_⟩
    · rw [List.forall₂_map_right_iff, List.forall₂_same]
      exact fun entry _ => treated entry
    · rw [List.flatMap_map]
      exact List.filterMap_eq_flatMap_toList _ _
    · rw [List.flatMap_map]
      exact List.filterMap_eq_flatMap_toList _ _
  · intro asset mem
    obtain ⟨entry, -, made⟩ := List.mem_filterMap.1 mem
    unfold select? at made
    split at made
    next named =>
      cases made
      exact isOwnFile_flatten named
    next => cases made

/-- Names that climb, a long s, a name that is all extension, and stems that promise hashes. -/
def mixedEntries : List Entry :=
  [("index.html", .empty), ("../../.ſVG", .empty), ("D41D8CD98F00B204E9800998ECF8427E.png", .empty),
    ("00000000000000000000000000000000.Gif", .empty), ("/.jpeg", .empty), ("index.html", .empty)]

theorem ofEntries_partitions_mixed :
    let selection := Selection.ofEntries (Keyed.ofList mixedEntries)
    selection.assets.map (·.fileName) = [".._.._.ſVG", "_.jpeg", "00000000000000000000000000000000.Gif",
      "D41D8CD98F00B204E9800998ECF8427E.png"] ∧
    selection.log = [⟨.warning, "Asset '00000000000000000000000000000000.Gif' does not match its md5 name " ++
        "(content hash d41d8cd98f00b204e9800998ecf8427e)"⟩,
      ⟨.warning, "Skipping non-asset archive entry 'index.html'"⟩] ∧
    ∀ asset ∈ selection.assets, IsOwnFile asset.fileName :=
  ⟨by decide +kernel, by decide +kernel, (ofEntries_partitions mixedEntries).2.2.2⟩

end Asset

end ScratchPage
