import Mathlib.Data.List.Forall2
import Mathlib.Data.List.Nodup
import ScratchPage.Proofs.Conversion.Delivery
import ScratchPage.Proofs.Text.Keyed

/-!
# Assets that share a file

Slashes in the name of an entry are written as underscores, so entries whose names differ only there share a
file, and the last of them takes it. Apart from code that is put in the place of an asset, nothing else gets
lost: an archive without such names keeps every asset in a file of its own.
-/

namespace ScratchPage
set_option autoImplicit false

/-! ## Names of entries -/

namespace Archive

/-- The entries that are assets. -/
def assetEntries (archive : Archive) : List Entry := archive.entries.filter fun entry => Asset.isName entry.1

/-- The names of entries are the keys of a map, so no two are the same. -/
theorem nodup_names {entries : List Entry} {archive : Archive} (made : ofEntries entries = .ok archive) :
    (archive.assetEntries.map (·.1)).Nodup := by
  unfold ofEntries at made
  simp only at made
  split at made
  · cases made
  · split at made
    · cases made
    · cases made
      refine (Keyed.nodup_keys entries).sublist (List.Sublist.map _ ?_)
      exact List.filter_sublist.trans List.filter_sublist

theorem assets_eq (archive : Archive) : (Selection.ofEntries archive.entries).assets =
    archive.assetEntries.map fun entry => ⟨Asset.flatten entry.1, entry.2⟩ := by
  unfold Selection.ofEntries assetEntries
  rw [← List.filterMap_eq_map, List.filterMap_filter]
  rfl

end Archive

namespace Asset

/-- The names differ at most in slashes against underscores. -/
def Alike (a b : String) : Prop :=
  List.Forall₂ (fun c d => c = d ∨ (c = '/' ∨ c = '_') ∧ (d = '/' ∨ d = '_')) a.toList b.toList

/-- Names are flattened to one file name exactly if they are alike. -/
theorem flatten_eq_iff {a b : String} : flatten a = flatten b ↔ Alike a b := by
  have each : ∀ c d : Char, ((if c = '/' then '_' else c) = if d = '/' then '_' else d) ↔
      c = d ∨ (c = '/' ∨ c = '_') ∧ (d = '/' ∨ d = '_') := by
    intro c d
    split <;> split <;> grind
  unfold flatten Alike
  rw [← String.toList_inj, String.toList_map, String.toList_map, ← List.forall₂_eq_eq_eq,
    List.forall₂_map_left_iff, List.forall₂_map_right_iff]
  simp only [each]

end Asset

namespace Conversion

open Disk

/-- Every entry has a file of its own in the directory, with exactly its bytes. -/
structure AssetsKept (entries : List Entry) (directory : Location) (after : Disk) : Prop where
  apart : ∀ a ∈ entries, ∀ b ∈ entries, Asset.flatten a.1 = Asset.flatten b.1 → a.1 = b.1
  holds : ∀ entry ∈ entries, after.item? (.plain (Asset.flatten entry.1) :: directory) = some (.file entry.2)

/-- An entry that shares its file with no other one is the last one there. -/
theorem pageFiles_of_apart (document : String) {entries : List Entry} (nodup : (entries.map (·.1)).Nodup)
    (apart : ∀ a ∈ entries, ∀ b ∈ entries, Asset.flatten a.1 = Asset.flatten b.1 → a.1 = b.1) {entry : Entry}
    (mem : entry ∈ entries) :
    pageFiles document (entries.map fun entry => ⟨Asset.flatten entry.1, entry.2⟩) (Asset.flatten entry.1) =
      some entry.2 := by
  obtain ⟨before, rest, rfl⟩ := List.append_of_mem mem
  rw [List.map_append, List.map_cons, pageFiles_of_last]
  intro later inside same
  obtain ⟨other, inRest, rfl⟩ := List.mem_map.1 inside
  have sameName : other.1 = entry.1 := apart other (by simp [inRest]) entry mem same
  rw [List.map_append, List.map_cons, List.nodup_append] at nodup
  exact (List.nodup_cons.1 nodup.2.1).1 (List.mem_map.2 ⟨other, inRest, sameName⟩)

/-- The assets of a prepared conversion have different names. -/
theorem Prepared.nodup_names {home : List String} {disk : Disk} {options : ConversionOptions}
    (prepared : Prepared home disk options) : (prepared.archive.assetEntries.map (·.1)).Nodup := by
  have made := prepared.archive_eq
  cases read : Session.entriesAt disk home options.input with
  | error fault =>
    rw [read] at made
    cases made
  | ok entries =>
    rw [read] at made
    exact Archive.nodup_names made

/-- A conversion that succeeds keeps every asset of the archive in a file of its own exactly if no two of
them have names that differ only in slashes against underscores, and code that is put in the place of one
has the same bytes. -/
theorem convert_keepsAssets_iff {setting : Setting} {disk after : Disk} {options : ConversionOptions}
    {log : Log} {shown : List String} (tree : disk.IsTree)
    (converted : Session.run setting disk (convert options) = (.ok log, after, shown)) :
    ∃ template archive page directory,
      templateAt? disk setting.home options.template = some template ∧
        (Session.entriesAt disk setting.home options.input).bind Archive.ofEntries = .ok archive ∧
        convertText archive.project template = .ok page ∧
        after.directory? setting.home options.output = some directory ∧
        (AssetsKept archive.assetEntries directory after ↔
          (∀ a ∈ archive.assetEntries, ∀ b ∈ archive.assetEntries, Asset.Alike a.1 b.1 → a.1 = b.1) ∧
            ∀ entry ∈ archive.assetEntries,
              options.emitCode.bind (after.locate? setting.home) =
                  some (.plain (Asset.flatten entry.1) :: directory) →
                page.code.toUTF8 = entry.2) := by
  obtain ⟨prepared, directory, -, written⟩ := (ends_convert tree options).session converted
  refine ⟨_, _, _, directory, prepared.template_eq, prepared.archive_eq, prepared.convertText_eq,
    written.found, ?_⟩
  simp only [← Asset.flatten_eq_iff]
  constructor
  · intro kept
    refine ⟨kept.apart, fun entry mem located => ?_⟩
    have same := (written.item?_code located).symm.trans (kept.holds entry mem)
    exact Item.file.inj (Option.some.inj same)
  · rintro ⟨apart, code⟩
    refine ⟨apart, fun entry mem => ?_⟩
    by_cases located : options.emitCode.bind (after.locate? setting.home) =
      some (.plain (Asset.flatten entry.1) :: directory)
    · rw [written.item?_code located, ← code entry mem located]
    · refine written.holds ?_ located
      rw [Prepared.files, Prepared.assets, Prepared.selection, Archive.assets_eq]
      exact pageFiles_of_apart _ prepared.nodup_names apart mem

/-- Code that is written to the file of an asset of the page. -/
theorem convert_keepsAssets_iff_oldSite :
    (gameDisk oldSite).IsTree ∧ ∃ log after shown,
      let options := gameOptions "../site" (some "/site/a.svg")
      Session.run gameSetting (gameDisk oldSite) (convert options) = (.ok log, after, shown) ∧
        ∃ template archive page directory,
          templateAt? (gameDisk oldSite) gameSetting.home options.template = some template ∧
            (Session.entriesAt (gameDisk oldSite) gameSetting.home options.input).bind Archive.ofEntries =
              .ok archive ∧
            convertText archive.project template = .ok page ∧
            after.directory? gameSetting.home options.output = some directory ∧
            (AssetsKept archive.assetEntries directory after ↔
              (∀ a ∈ archive.assetEntries, ∀ b ∈ archive.assetEntries, Asset.Alike a.1 b.1 → a.1 = b.1) ∧
                ∀ entry ∈ archive.assetEntries,
                  options.emitCode.bind (after.locate? gameSetting.home) =
                      some (.plain (Asset.flatten entry.1) :: directory) →
                    page.code.toUTF8 = entry.2) := by
  have tree : (gameDisk oldSite).IsTree := isTree_of_items (by decide +kernel)
  have succeeds : succeedsWith gameSetting (gameDisk oldSite) (gameOptions "../site" (some "/site/a.svg"))
      (fun _ => true) = true := by
    decide +kernel
  obtain ⟨log, after, shown, converted, -⟩ := exists_of_succeedsWith succeeds
  exact ⟨tree, log, after, shown, converted, convert_keepsAssets_iff tree converted⟩

/-- Two entries of an archive share a file name. -/
def clashDisk : Disk :=
  ⟨[([.plain "home"], .directory),
    ([.plain "game.sb3", .plain "home"],
      .archive [("project.json", "\x7b\"targets\":[]\x7d".toUTF8), ("a/b.png", "first".toUTF8),
        ("a_b.png", "second".toUTF8)]),
    ([.plain "template", .plain "home"], .file "page".toUTF8)]⟩

/-- The output directory has a file under the name that is not as long as one of the entries that share it. -/
def losesAsset (home : List String) (disk : Disk) (options : ConversionOptions) (fileName : String) (after : Disk) : Bool :=
  match (Session.entriesAt disk home options.input).bind Archive.ofEntries, after.directory? home options.output with
  | .ok archive, some directory =>
    match after.item? (.plain fileName :: directory) with
    | some (.file bytes) =>
      archive.assetEntries.any fun entry => Asset.flatten entry.1 == fileName && bytes.size != entry.2.size
    | _ => false
  | _, _ => false

/-- A file that is not as long as the entry shows that an asset is lost. -/
theorem not_assetsKept_of_losesAsset {home : List String} {disk after : Disk} {options : ConversionOptions}
    {fileName : String} (loses : losesAsset home disk options fileName after = true) :
    ∃ archive directory, (Session.entriesAt disk home options.input).bind Archive.ofEntries = .ok archive ∧
      after.directory? home options.output = some directory ∧
      ¬ AssetsKept archive.assetEntries directory after := by
  unfold losesAsset at loses
  split at loses
  next archive directory made found =>
    refine ⟨archive, directory, made, found, fun kept => ?_⟩
    split at loses
    next bytes stands =>
      obtain ⟨entry, mem, shares⟩ := List.any_eq_true.1 loses
      simp only [Bool.and_eq_true, beq_iff_eq, bne_iff_ne] at shares
      obtain ⟨rfl, other⟩ := shares
      have same := stands.symm.trans (kept.holds entry mem)
      exact other (congrArg ByteArray.size (Item.file.inj (Option.some.inj same)))
    next => cases loses
  next => cases loses

/-- Of two assets whose names differ in a slash against an underscore, only one is kept. -/
theorem clash_loses_asset :
    ∃ log after shown,
      Session.run gameSetting clashDisk (convert (gameOptions "site" none)) = (.ok log, after, shown) ∧
        ∃ archive directory,
          (Session.entriesAt clashDisk gameSetting.home (gameOptions "site" none).input).bind
              Archive.ofEntries = .ok archive ∧
            after.directory? gameSetting.home (gameOptions "site" none).output = some directory ∧
            ¬ AssetsKept archive.assetEntries directory after := by
  have succeeds : succeedsWith gameSetting clashDisk (gameOptions "site" none)
      (losesAsset gameSetting.home clashDisk (gameOptions "site" none) "a_b.png") = true := by
    decide +kernel
  obtain ⟨log, after, shown, converted, loses⟩ := exists_of_succeedsWith succeeds
  exact ⟨log, after, shown, converted, not_assetsKept_of_losesAsset loses⟩

end Conversion

end ScratchPage
