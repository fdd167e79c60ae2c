import ScratchPage.Page
import ScratchPage.Proofs.Conversion.Publication
import ScratchPage.Proofs.Disk.Tree

/-!
# Delivery

A conversion that succeeds leaves the page that its project file and template make in the output directory,
together with the assets, and its code where it was asked for. It does not matter whether the output
directory was there before: everything else on the disk is as it was, apart from new directories on the way
to the output directory, and nothing staged is left behind.
-/

namespace ScratchPage
set_option autoImplicit false

namespace Conversion

open Disk

/-! ## Files of a page -/

theorem foldl_write_of_not_mem {assets : List Asset} {name : String} (files : Files)
    (apart : ∀ asset ∈ assets, asset.fileName ≠ name) : assets.foldl Files.write files name = files name := by
  induction assets generalizing files with
  | nil => rfl
  | cons asset assets ih =>
    rw [List.foldl_cons, ih _ fun other mem => apart other (by simp [mem]), Files.write,
      if_neg (apart asset (by simp)).symm]

/-- Of several assets with one name the last one counts. -/
theorem pageFiles_of_last (document : String) (before rest : List Asset) {asset : Asset}
    (last : ∀ later ∈ rest, later.fileName ≠ asset.fileName) :
    pageFiles document (before ++ asset :: rest) asset.fileName = some asset.bytes := by
  rw [pageFiles, List.foldl_append, List.foldl_cons, foldl_write_of_not_mem _ last, Files.write, if_pos rfl]

theorem pageFiles_pageName (document : String) {assets : List Asset}
    (apart : ∀ asset ∈ assets, asset.fileName ≠ pageName) :
    pageFiles document assets pageName = some document.toUTF8 := by
  rw [pageFiles, foldl_write_of_not_mem _ apart, Files.write, if_pos rfl]

/-! ## The output directory -/

/-- The directory at a path has its files. Everything else is as it was, unless the directory itself is
new. -/
structure Housed (home : List String) (before : Disk) (path : String) (files : Files) (directory : Location)
    (after : Disk) : Prop where
  found : after.directory? home path = some directory
  wasOther : ∀ name, (files name).isSome → before.isDirectory (.plain name :: directory) = false
  holds : ∀ name bytes, files name = some bytes → after.item? (.plain name :: directory) = some (.file bytes)
  others : ∀ location, (∀ name, (files name).isSome → location ≠ .plain name :: directory) →
    after.item? location = before.item? location ∨
      location = directory ∧ before.item? location = none ∧ after.item? location = some .directory

section

variable {home : List String} {base disk : Disk} {place : StagedPlace base} {output target : Location}
  {files : Files} {path : String}

/-- A directory that was there has taken over the files. -/
theorem Moving.housed (tree : base.IsTree) (found : base.directory? home path = some output)
    (moving : Moving place output files [] disk) :
    Housed home base path files output (disk.erase place.location) where
  found := (directory?_congr (agreeOff_erase disk _ _) home path).trans (moving.directory? found)
  wasOther name has := by
    obtain ⟨bytes, has⟩ := Option.isSome_iff_exists.1 has
    exact (moving.moved name (by simp) bytes has).1
  holds name bytes has := by
    have holds := (moving.moved name (by simp) bytes has).2
    exact holds.erase place.ne_nil
      (place.not_below_of_isPlain ((isPlain_directory? found).cons name)) []
  others location off := by
    left
    refine place.item?_erase fun apart => ?_
    by_cases out : ∀ name, (files name).isSome → ¬ .plain name :: output <:+ location
    · exact moving.others location apart out
    -- Nothing is below a file, and nothing was below its place.
    · simp only [not_forall, Decidable.not_not] at out
      obtain ⟨name, has, inner, rfl⟩ := out
      have inside : inner ≠ [] := by
        rintro rfl
        exact off name has rfl
      obtain ⟨bytes, has⟩ := Option.isSome_iff_exists.1 has
      obtain ⟨wasOther, holds⟩ := moving.moved name (by simp) bytes has
      rw [holds inner, if_neg inside, tree.nothing_below wasOther inside]

/-- The staged directory takes everything below it to a place where nothing stood. -/
theorem Staging.item?_move (tree : base.IsTree) (staging : Staging place files disk) (plain : IsPlain target)
    (nothing : base.item? target = none) :
    let after := (disk.move place.location target).erase place.location
    (∀ inner, after.item? (inner ++ target) = disk.item? (inner ++ place.location)) ∧
      ∀ location, ¬ target <:+ location → after.item? location = base.item? location := by
  intro after
  have off := place.not_below_of_isPlain plain
  have off' := place.not_around plain (by simp [Disk.isDirectory, nothing])
  have apart : ∀ inner, ¬ place.location <:+ inner ++ target :=
    fun inner below => not_both_suffix off off' below (List.suffix_append _ _)
  have moved : disk.move place.location target = disk.replace place.location target :=
    move_eq_replace fun inner => (staging.outside _ (apart inner)).trans (tree.nothing_at nothing inner)
  refine ⟨fun inner => ?_, fun location out => ?_⟩
  · rw [Disk.item?_erase place.ne_nil, if_neg (apart inner), moved, item?_replace_append off off']
  · refine place.item?_erase fun apart => ?_
    rw [moved, item?_replace_of_not_suffix off off' apart out, staging.outside location apart]

/-- The staged directory was moved to a place where nothing stood. -/
theorem Staging.housed (tree : base.IsTree) (staging : Staging place files disk)
    (placed : base.place? home (withoutSlashes path) = some target) (nothing : base.item? target = none) :
    Housed home base path files target ((disk.move place.location target).erase place.location) := by
  obtain ⟨carried, kept⟩ := staging.item?_move tree (isPlain_locate? (locate?_of_place? placed)) nothing
  generalize (disk.move place.location target).erase place.location = after at carried kept
  have nothingBelow := tree.nothing_at nothing
  have root : after.item? target = some .directory := (carried []).trans staging.root
  constructor
  case found =>
    refine directory?_of_place? placed (fun location all => ?_) (isDirectory_iff.2 root)
    have here := isDirectory_iff.1 (all location (List.suffix_refl _))
    rw [isDirectory_iff, kept location, here]
    rintro ⟨inner, rfl⟩
    cases (nothingBelow inner).symm.trans here
  case wasOther =>
    intro name _
    have missing : base.item? (.plain name :: target) = none := nothingBelow [.plain name]
    simp [Disk.isDirectory, missing]
  case holds =>
    intro name bytes has
    exact (carried [.plain name]).trans (staging.holdsFile has [])
  case others =>
    intro location out
    by_cases below : target <:+ location
    -- Below the target stands what was staged: the files, and nothing else.
    · obtain ⟨inner, rfl⟩ := below
      rcases inner.eq_nil_or_concat with rfl | ⟨inner, name, rfl⟩
      · exact .inr ⟨rfl, nothing, root⟩
      · left
        rw [nothingBelow, carried, List.concat_append]
        cases name with
        | staged serial => exact staging.unstaged serial inner
        | plain name =>
          rw [staging.holds]
          split
          next here =>
            subst here
            simpa using out name
          next => rfl
    · exact .inl (kept location below)

/-- Settled files are housed in the output directory once the staged directory is gone, whichever way they took.
-/
theorem Settled.housed (tree : base.IsTree) (settled : Settled home place path files disk) :
    ∃ directory, Housed home base path files directory (disk.erase place.location) := by
  cases settled with
  | takenOver found moving => exact ⟨_, moving.housed tree found⟩
  | moved staging placed nothing =>
    rw [place?_congr staging.outside.agreeOff] at placed
    have plain := isPlain_locate? (locate?_of_place? placed)
    rw [staging.outside _ (place.not_below_of_isPlain plain)] at nothing
    exact ⟨_, staging.housed tree placed nothing⟩

end

namespace Housed

variable {home : List String} {before after : Disk} {path : String} {files : Files}
  {directory location : Location} (housed : Housed home before path files directory after)

include housed

theorem plain : IsPlain directory := isPlain_directory? housed.found

/-- No directory was replaced. -/
theorem keeps (isDirectory : before.isDirectory location = true) : after.isDirectory location = true := by
  rw [isDirectory_iff] at isDirectory ⊢
  have out : ∀ name, (files name).isSome → location ≠ .plain name :: directory := by
    rintro name has rfl
    have wasOther := housed.wasOther name has
    rw [isDirectory_iff.2 isDirectory] at wasOther
    cases wasOther
  obtain same | ⟨-, -, new⟩ := housed.others location out
  · exact same.trans isDirectory
  · exact new

/-- The housing of files keeps a tree a tree. -/
theorem isTree (tree : before.IsTree) : after.IsTree := by
  intro name outer stands
  by_cases out : ∀ file, (files file).isSome → name :: outer ≠ .plain file :: directory
  · obtain same | ⟨here, -, -⟩ := housed.others _ out
    · rw [same] at stands
      exact housed.keeps (tree name outer stands)
    · exact isDirectory_of_suffix housed.found (here ▸ List.suffix_cons name outer)
  · simp only [not_forall, Decidable.not_not] at out
    obtain ⟨file, -, same⟩ := out
    cases same
    exact isDirectory_of_suffix housed.found (List.suffix_refl _)

/-- Something staged stays where it is. -/
theorem staged (staged : ¬ IsPlain location) : after.item? location = before.item? location := by
  have out : ∀ name, (files name).isSome → location ≠ .plain name :: directory := by
    rintro name - rfl
    exact staged (housed.plain.cons name)
  obtain same | ⟨rfl, -, -⟩ := housed.others location out
  · exact same
  · exact absurd housed.plain staged

/-- A file that was staged before the directory got its files can be discarded after it. -/
theorem erase {before' : Disk} {serial : Nat} {outer : Location} (agree : AgreeOff serial before before')
    (same : (before.erase (.staged serial :: outer)).Same before') :
    Housed home before' path files directory (after.erase (.staged serial :: outer)) := by
  have kept := agreeOff_erase after serial outer
  constructor
  case found => exact (directory?_congr kept home path).trans housed.found
  case wasOther =>
    intro name has
    rw [← agree.isDirectory (housed.plain.cons name serial)]
    exact housed.wasOther name has
  case holds =>
    intro name bytes has
    rw [kept _ (housed.plain.cons name serial)]
    exact housed.holds name bytes has
  case others =>
    intro location out
    obtain unchanged | ⟨rfl, nothing, new⟩ := housed.others location out
    · left
      exact (item?_erase_congr (by simp) unchanged).trans (same location)
    · right
      rw [kept _ (housed.plain serial), ← agree _ (housed.plain serial)]
      exact ⟨rfl, nothing, new⟩

end Housed

/-! ## The code -/

/-- The file at a path holds the code. Nothing else has changed. -/
structure Emitted (home : List String) (before : Disk) (path : String) (code : ByteArray) (location : Location)
    (after : Disk) : Prop where
  located : after.locate? home path = some location
  wasOther : before.isDirectory location = false
  item : ∀ other, after.item? other = if other = location then some (.file code) else before.item? other

/-- A file that takes the place of no directory keeps all directories. -/
theorem isDirectory_of_file {before after : Disk} {code : ByteArray} {location other : Location}
    (wasOther : before.isDirectory location = false)
    (item : ∀ other, after.item? other = if other = location then some (.file code) else before.item? other)
    (isDirectory : before.isDirectory other = true) : after.isDirectory other = true := by
  rw [isDirectory_iff, item, if_neg, ← isDirectory_iff, isDirectory]
  rintro rfl
  exact Bool.false_ne_true (wasOther.symm.trans isDirectory)

theorem Emitted.keeps {home : List String} {before after : Disk} {path : String} {code : ByteArray}
    {location other : Location} (emitted : Emitted home before path code location after) (isDirectory : before.isDirectory other = true) :
    after.isDirectory other = true := isDirectory_of_file emitted.wasOther emitted.item isDirectory

/-- So does the file for the code. -/
theorem Emitted.isTree {home : List String} {before after : Disk} {path : String} {code : ByteArray}
    {location : Location} (emitted : Emitted home before path code location after) (tree : before.IsTree) : after.IsTree := by
  intro name outer stands
  by_cases here : name :: outer = location
  · refine around_locate? emitted.located outer (here ▸ List.suffix_cons name outer) fun same => ?_
    exact List.cons_ne_self name outer (here.trans same.symm)
  · rw [emitted.item, if_neg here] at stands
    exact emitted.keeps (tree name outer stands)

/-- A staged file is moved to a path. -/
theorem emitted_of_move {home : List String} {disk : Disk} (tree : disk.IsTree) {serial : Nat}
    {outer target : Location} {path : String} {code : ByteArray}
    (held : disk.item? (.staged serial :: outer) = some (.file code))
    (placed : disk.place? home path = some target) (other : disk.isDirectory target = false) :
    Emitted home (disk.erase (.staged serial :: outer)) path code target
      ((disk.replace (.staged serial :: outer) target).erase (.staged serial :: outer)) := by
  have located := locate?_of_place? placed
  have plain := isPlain_locate? located
  have agree := agreeOff_erase disk serial outer
  have apart := plain.not_below_staged serial outer
  have wasOther : (disk.erase (.staged serial :: outer)).isDirectory target = false :=
    (agree.isDirectory (plain serial)).trans other
  have item : ∀ location,
      ((disk.replace (.staged serial :: outer) target).erase (.staged serial :: outer)).item? location =
        if location = target then some (.file code)
        else (disk.erase (.staged serial :: outer)).item? location :=
    fun _ => tree.item?_replace_file held apart other
  refine ⟨?_, wasOther, item⟩
  refine locate?_of_keeps ((locate?_congr agree home path).trans located) fun place all => ?_
  exact isDirectory_of_file wasOther item (all place (List.suffix_refl _))

/-! ## Whole deliveries -/

/-- The files are in their directory, and then the code is where it was asked for, if it was. -/
inductive Written (home : List String) (created : Disk) (output : String) (files : Files) (code : ByteArray)
    (directory : Location) : Option String → Disk → Prop
  | page {after : Disk} (housed : Housed home created output files directory after) :
      Written home created output files code directory none after
  | code {path : String} {middle after : Disk} {location : Location}
      (housed : Housed home created output files directory middle)
      (emitted : Emitted home middle path code location after) :
      Written home created output files code directory (some path) after

namespace Written

variable {home : List String} {created after : Disk} {output : String} {files : Files} {code : ByteArray}
  {directory location : Location} {emitCode : Option String}
  (written : Written home created output files code directory emitCode after)

include written

theorem found : after.directory? home output = some directory := by
  cases written with
  | page housed => exact housed.found
  | code housed emitted =>
    exact (directory?_of_keeps housed.found fun place all =>
      emitted.keeps (all place (List.suffix_refl place))).2

/-- Each file is in the output directory unless the code was written to the same place. -/
theorem holds {name : String} {bytes : ByteArray} (has : files name = some bytes)
    (apart : emitCode.bind (after.locate? home) ≠ some (.plain name :: directory)) :
    after.item? (.plain name :: directory) = some (.file bytes) := by
  cases written with
  | page housed => exact housed.holds name bytes has
  | code housed emitted =>
    rw [Option.bind_some, emitted.located] at apart
    rw [emitted.item, if_neg fun same => apart (congrArg some same.symm), housed.holds name bytes has]

theorem look? {path : String} (asked : emitCode = some path) : after.look? home path = some (.file code) := by
  cases written with
  | page => cases asked
  | code housed emitted =>
    cases asked
    rw [Disk.look?, emitted.located, Option.bind_some, emitted.item, if_pos rfl]

theorem item?_code (located : emitCode.bind (after.locate? home) = some location) :
    after.item? location = some (.file code) := by
  obtain ⟨path, asked, located⟩ := Option.bind_eq_some_iff.1 located
  have looked := written.look? asked
  rwa [Disk.look?, located, Option.bind_some] at looked

/-- All other places are as they were, but for the output directory itself if it is new. -/
theorem others (out : ∀ name, (files name).isSome → location ≠ .plain name :: directory)
    (apart : emitCode.bind (after.locate? home) ≠ some location) :
    after.item? location = created.item? location ∨
      location = directory ∧ created.item? location = none ∧ after.item? location = some .directory := by
  cases written with
  | page housed => exact housed.others location out
  | code housed emitted =>
    rw [Option.bind_some, emitted.located] at apart
    rw [emitted.item, if_neg fun same => apart (congrArg some same.symm)]
    exact housed.others location out

theorem keeps (isDirectory : created.isDirectory location = true) : after.isDirectory location = true := by
  cases written with
  | page housed => exact housed.keeps isDirectory
  | code housed emitted => exact emitted.keeps (housed.keeps isDirectory)

theorem isTree (tree : created.IsTree) : after.IsTree := by
  cases written with
  | page housed => exact housed.isTree tree
  | code housed emitted => exact emitted.isTree (housed.isTree tree)

theorem staged (staged : ¬ IsPlain location) : after.item? location = created.item? location := by
  cases written with
  | page housed => exact housed.staged staged
  | code housed emitted =>
    rw [emitted.item, if_neg, housed.staged staged]
    rintro rfl
    exact staged (isPlain_locate? emitted.located)

end Written

/-- A new directory is the output directory or one on the way that was created for it. -/
theorem Written.others_of_create {home : List String} {disk after : Disk} {path output : String} {count : Nat}
    {files : Files} {code : ByteArray} {directory location : Location} {emitCode : Option String}
    (written : Written home (disk.createFirst home path count).2 output files code directory emitCode after)
    (out : ∀ name, (files name).isSome → location ≠ .plain name :: directory)
    (apart : emitCode.bind (after.locate? home) ≠ some location) :
    after.item? location = disk.item? location ∨
      disk.item? location = none ∧ after.item? location = some .directory ∧
        (location = directory ∨ after.Passes home path location) := by
  have grown := grownAlong_createFirst disk home path count location
  obtain same | ⟨here, nothing, new⟩ := written.others out apart
  · rw [same]
    obtain unchanged | ⟨nothing, new, passes⟩ := grown
    · exact .inl unchanged
    · exact .inr ⟨nothing, new, .inr (passes.of_keeps fun _ => written.keeps)⟩
  · obtain unchanged | ⟨-, created, -⟩ := grown
    · exact .inr ⟨unchanged.symm.trans nothing, new, .inl here⟩
    · cases nothing.symm.trans created

/-- Something staged on a tree is still there when directories were created. -/
theorem item?_staged {disk : Disk} (tree : disk.IsTree) {outer : Location}
    (isDirectory : disk.isDirectory outer = true) (item : Item) (home : List String) (path : String)
    (count : Nat) :
    let staged := ((disk.put (disk.freshLocation outer) item).createFirst home path count).2
    staged.IsTree ∧ staged.item? (disk.freshLocation outer) = some item := by
  have free : disk.item? (disk.freshLocation outer) = none :=
    free_freshSerial disk _ (by simp [freshLocation])
  refine ⟨(tree.put isDirectory free item).createFirst home path count, ?_⟩
  rw [item?_createFirst home path count (not_isPlain_freshLocation disk outer),
    item?_put (by simp [freshLocation]), if_pos rfl]

/-- What an error leaves while a page is written: nothing new but directories, or some of the files in an
output directory that was there already, or, if only the code could not be put in its place, the page. -/
inductive Stopped (home : List String) (disk : Disk) (output : String) (files : Files) (code : ByteArray) :
    ConversionError → Disk → Prop
  | preparing {error : ConversionError} {after : Disk} (phase : error.phase = .preparing) :
      Stopped home disk output files code error after
  | publishing {error : ConversionError} {after : Disk} {count : Nat} (phase : error.phase = .publishing)
      (withdrawn : Withdrawn home (disk.createFirst home (Path.parent output) count).2 output files error
        after) : Stopped home disk output files code error after
  | emitting {error : ConversionError} {after : Disk} {directory : Location} (phase : error.phase = .emitting)
      (written : Written home (disk.createDirectories home (Path.parent output)).2 output files code directory
        none after) : Stopped home disk output files code error after

/-- The file with the code is staged before the page is published, moved to its place afterwards, and gone
from where it was staged whatever happens. -/
theorem ends_publishWithCode {setting : Setting} {disk : Disk} (tree : disk.IsTree)
    (options : ConversionOptions) (path code document : String) (assets : List Asset) :
    Ends setting disk (publishWithCode options path code document assets)
      (ending
        (fun _ after => ∃ directory,
          Written setting.home (disk.createDirectories setting.home (Path.parent options.output)).2 options.output
            (pageFiles document assets) code.toUTF8 directory (some path) after)
        (Stopped setting.home disk options.output (pageFiles document assets) code.toUTF8)) := by
  unfold publishWithCode
  refine Ends.bind (Ends.stage (fun outer found => ?_) (.preparing rfl))
  refine Ends.discarding (Ends.bind (Ends.write ?_ fun _ _ => .preparing rfl))
  rw [put_put]
  have isDirectory := isDirectory_of_suffix found (List.suffix_refl _)
  have kept := item?_staged tree isDirectory (.file code.toUTF8) setting.home (Path.parent options.output)
  have unnoticed := createFirst_put (free_freshSerial disk) outer (.file code.toUTF8) setting.home
    (Path.parent options.output)
  refine Ends.bind (Ends.announce (Ends.bind ?_))
  refine (ends_publish _ _ _ _).imp (fun _ middle published => ?_) ?_
  -- The page was published on a disk with the staged code; discarding the code takes it off both disks.
  · obtain ⟨place, last, settled, rfl⟩ := published
    obtain ⟨treeStaged, held⟩ := kept _
    obtain ⟨directory, housed⟩ := settled.housed treeStaged
    have page := housed.erase (unnoticed _).1 (unnoticed _).2
    refine Ends.bind (Ends.announce (Ends.change (fun _ after moved => ?_) ?_))
    · obtain ⟨next, acted, rest⟩ := Option.map_eq_some_iff.1 moved
      cases rest
      obtain ⟨target, placed, acted⟩ := Option.bind_eq_some_iff.1 acted
      unfold Session.moveOnto at acted
      split at acted
      · cases acted
      next other =>
        cases acted
        have stays := (housed.staged (not_isPlain_freshLocation disk outer)).trans held
        have emitted := emitted_of_move (housed.isTree treeStaged) stays placed (Bool.eq_false_iff.2 other)
        exact ⟨directory, .code page emitted⟩
    · exact .emitting rfl (.page page)
  · rintro error after ⟨phase, count, withdrawn⟩
    exact .publishing phase (withdrawn.erase (unnoticed count).1 (unnoticed count).2)

/-- The page is written, and the code if it was asked for. -/
theorem ends_write {setting : Setting} {disk : Disk} (tree : disk.IsTree) {options : ConversionOptions}
    (prepared : Prepared setting.home disk options) :
    Ends setting disk prepared.write
      (ending
        (fun _ after => ∃ directory,
          Written setting.home (disk.createDirectories setting.home (Path.parent options.output)).2 options.output
            prepared.files prepared.code.toUTF8 directory options.emitCode after)
        (Stopped setting.home disk options.output prepared.files prepared.code.toUTF8)) := by
  unfold Prepared.write
  split
  next path asked =>
    rw [asked]
    exact ends_publishWithCode tree options path prepared.code prepared.document prepared.assets
  next asked =>
    rw [asked]
    refine Ends.bind (Ends.announce ?_)
    refine (ends_publish _ _ _ _).imp (fun _ after published => ?_) ?_
    · obtain ⟨place, last, settled, rfl⟩ := published
      obtain ⟨directory, housed⟩ := settled.housed (tree.createFirst _ _ _)
      exact ⟨directory, .page housed⟩
    · rintro error after ⟨phase, count, withdrawn⟩
      exact .publishing phase withdrawn

theorem Prepared.convertText_eq {home : List String} {disk : Disk} {options : ConversionOptions}
    (prepared : Prepared home disk options) :
    convertText prepared.archive.project prepared.template =
      .ok ⟨prepared.document, prepared.code, prepared.project.compile.raised⟩ := by
  simp only [convertText, compileText, prepared.project_eq, prepared.code_eq]
  rfl

/-- A conversion that prepared a page has written it, or an error stopped that. -/
theorem ends_convert {setting : Setting} {disk : Disk} (tree : disk.IsTree) (options : ConversionOptions) :
    Ends setting disk (convert options) (ending
      (fun log after => ∃ (prepared : Prepared setting.home disk options) (directory : Location),
        log = prepared.log ∧
          Written setting.home (disk.createDirectories setting.home (Path.parent options.output)).2 options.output
            prepared.files prepared.code.toUTF8 directory options.emitCode after)
      fun error after => error.phase = .preparing ∨ ∃ prepared : Prepared setting.home disk options,
        Stopped setting.home disk options.output prepared.files prepared.code.toUTF8 error after) := by
  refine Ends.convert (fun error phase => .inl phase) fun prepared => ?_
  refine (ends_write tree prepared).imp (fun _ after written => ?_) fun _ _ stopped => .inr ⟨prepared, stopped⟩
  obtain ⟨directory, written⟩ := written
  exact ⟨prepared, directory, rfl, written⟩

/-- What a page with its assets leaves on a disk: its files in the output directory, the last asset of each
name, and its code where it was asked for. Every other location is as it was, or is a new directory: the
output directory or one on the way to it. Nothing staged is left behind, and the disk is still a tree. -/
structure Delivered (home : List String) (disk : Disk) (options : ConversionOptions) (page : Page)
    (assets : List Asset) (directory : Location) (after : Disk) : Prop where
  found : after.directory? home options.output = some directory
  holdsPage : after.item? (.plain pageName :: directory) = some (.file page.document.toUTF8)
  holdsAssets : ∀ before asset rest, assets = before ++ asset :: rest →
    (∀ later ∈ rest, later.fileName ≠ asset.fileName) →
    after.item? (.plain asset.fileName :: directory) = some (.file asset.bytes)
  holdsCode : ∀ path, options.emitCode = some path → after.look? home path = some (.file page.code.toUTF8)
  others : ∀ location, location ≠ .plain pageName :: directory →
    (∀ asset ∈ assets, location ≠ .plain asset.fileName :: directory) →
    options.emitCode.bind (after.locate? home) ≠ some location →
    after.item? location = disk.item? location ∨
      disk.item? location = none ∧ after.item? location = some .directory ∧
        (location = directory ∨ after.Passes home (Path.parent options.output) location)
  unstaged : ∀ location, ¬ IsPlain location → after.item? location = disk.item? location
  isTree : after.IsTree

/-- A page that was written, with code that went nowhere inside the output directory, is delivered. -/
theorem Prepared.delivered {home : List String} {disk after : Disk} {options : ConversionOptions}
    (prepared : Prepared home disk options) (tree : disk.IsTree) {directory : Location}
    {emitCode : Option String}
    (written : Written home (disk.createDirectories home (Path.parent options.output)).2 options.output
      prepared.files prepared.code.toUTF8 directory emitCode after)
    (outside : ∀ location, emitCode.bind (after.locate? home) = some location → ¬ directory <:+ location)
    (log : Log) :
    Delivered home disk { options with emitCode } ⟨prepared.document, prepared.code, log⟩ prepared.assets
      directory after := by
  have apart : ∀ name, emitCode.bind (after.locate? home) ≠ some (.plain name :: directory) :=
    fun name located => outside _ located (List.suffix_cons _ _)
  constructor
  case found => exact written.found
  case holdsPage =>
    exact written.holds (pageFiles_pageName _ prepared.fileName_ne_pageName) (apart _)
  case holdsAssets =>
    intro before asset rest split last
    refine written.holds ?_ (apart _)
    have files : prepared.files = pageFiles prepared.document (before ++ asset :: rest) :=
      congrArg (pageFiles prepared.document) split
    rw [files, pageFiles_of_last _ _ _ last]
  case holdsCode => exact fun path => written.look?
  case others =>
    intro location offPage offAssets offCode
    have out : ∀ name, (prepared.files name).isSome → location ≠ .plain name :: directory := by
      intro name has
      obtain rfl | ⟨asset, mem, rfl⟩ := isSome_pageFiles.1 has
      · exact offPage
      · exact offAssets asset mem
    exact written.others_of_create out offCode
  case unstaged =>
    intro location staged
    exact (written.staged staged).trans (item?_createFirst _ _ _ staged)
  case isTree => exact written.isTree (tree.createFirst _ _ _)

/-- A conversion that succeeds delivers the page that its project file and its template make, with the
assets of the archive, and returns the findings on both. Its code may go anywhere outside the output
directory. -/
theorem convert_delivered {setting : Setting} {disk after : Disk} {options : ConversionOptions} {log : Log}
    {shown : List String} (tree : disk.IsTree)
    (converted : Session.run setting disk (convert options) = (.ok log, after, shown))
    (outside : ∀ location directory, options.emitCode.bind (after.locate? setting.home) = some location →
      after.directory? setting.home options.output = some directory → ¬ directory <:+ location) :
    ∃ template archive page directory,
      templateAt? disk setting.home options.template = some template ∧
        (Session.entriesAt disk setting.home options.input).bind Archive.ofEntries = .ok archive ∧
        convertText archive.project template = .ok page ∧
        log = page.log ++ (Selection.ofEntries archive.entries).log ∧
        Delivered setting.home disk options page (Selection.ofEntries archive.entries).assets directory
          after := by
  obtain ⟨prepared, directory, rfl, written⟩ := (ends_convert tree options).session converted
  refine ⟨_, _, _, directory, prepared.template_eq, prepared.archive_eq, prepared.convertText_eq, rfl, ?_⟩
  exact prepared.delivered tree written (fun location located => outside _ _ located written.found) _

/-! ## A delivery into an old site -/

/-- A disk with an archive of one asset and a template in a working directory, and further items. -/
def gameDisk (items : List (Location × Item)) : Disk :=
  ⟨([.plain "home"], .directory) ::
    ([.plain "game.sb3", .plain "home"],
      .archive [("project.json", "\x7b\"targets\":[]\x7d".toUTF8), ("a.svg", "<svg/>".toUTF8)]) ::
    ([.plain "template", .plain "home"], .file "page".toUTF8) :: items⟩

def gameOptions (output : String) (emitCode : Option String) : ConversionOptions :=
  ⟨"game.sb3", output, some "/home/template", emitCode⟩

/-- The conversion succeeds and leaves a disk that passes the test. -/
def succeedsWith (setting : Setting) (disk : Disk) (options : ConversionOptions) (test : Disk → Bool) : Bool :=
  match Session.run setting disk (convert options) with
  | (.ok _, after, _) => test after
  | (.error _, _, _) => false

/-- The success of a conversion is evaluated together with a test of the disk after it. -/
theorem exists_of_succeedsWith {setting : Setting} {disk : Disk} {options : ConversionOptions}
    {test : Disk → Bool} (succeeds : succeedsWith setting disk options test = true) :
    ∃ log after shown, Session.run setting disk (convert options) = (.ok log, after, shown) ∧
      test after = true := by
  unfold succeedsWith at succeeds
  split at succeeds
  next log after shown converted => exact ⟨log, after, shown, converted, succeeds⟩
  next => cases succeeds

/-- The code is not in the output directory. -/
def isCodeOutside (home : List String) (options : ConversionOptions) (after : Disk) : Bool :=
  match options.emitCode.bind (after.locate? home), after.directory? home options.output with
  | some location, some directory => !directory.isSuffixOf location
  | _, _ => true

theorem not_suffix_of_isCodeOutside {home : List String} {options : ConversionOptions} {after : Disk}
    (outside : isCodeOutside home options after = true) (location directory : Location)
    (located : options.emitCode.bind (after.locate? home) = some location)
    (found : after.directory? home options.output = some directory) : ¬ directory <:+ location := by
  intro below
  simp [isCodeOutside, located, found, List.isSuffixOf_iff_suffix.2 below] at outside

/-- A site next to the working directory is there, with an old page and a file of its own. -/
def oldSite : List (Location × Item) :=
  [([.plain "site"], .directory), ([.plain pageName, .plain "site"], .file "old page".toUTF8),
    ([.plain "notes.txt", .plain "site"], .file "notes".toUTF8)]

/-- A setting with a working directory in which names are listed backwards. -/
def gameSetting : Setting :=
  { Setting.calm ["home"] with order := List.reverse, order_perm := List.reverse_perm }

/-- The old site is converted over, by a path that leaves a directory again and ends in a slash. -/
theorem convert_delivered_oldSite :
    (gameDisk oldSite).IsTree ∧ ∃ log after shown,
      let options := gameOptions "new/../../site/" (some "/game.js")
      Session.run gameSetting (gameDisk oldSite) (convert options) = (.ok log, after, shown) ∧
        (∀ location directory, options.emitCode.bind (after.locate? gameSetting.home) = some location →
          after.directory? gameSetting.home options.output = some directory → ¬ directory <:+ location) ∧
        ∃ template archive page directory,
          templateAt? (gameDisk oldSite) gameSetting.home options.template = some template ∧
            (Session.entriesAt (gameDisk oldSite) gameSetting.home options.input).bind Archive.ofEntries =
              .ok archive ∧
            convertText archive.project template = .ok page ∧
            log = page.log ++ (Selection.ofEntries archive.entries).log ∧
            Delivered gameSetting.home (gameDisk oldSite) options page
              (Selection.ofEntries archive.entries).assets directory after := by
  have tree : (gameDisk oldSite).IsTree := isTree_of_items (by decide +kernel)
  have succeeds : succeedsWith gameSetting (gameDisk oldSite) (gameOptions "new/../../site/" (some "/game.js"))
      (isCodeOutside gameSetting.home (gameOptions "new/../../site/" (some "/game.js"))) = true := by
    decide +kernel
  obtain ⟨log, after, shown, converted, isOutside⟩ := exists_of_succeedsWith succeeds
  have outside := not_suffix_of_isCodeOutside isOutside
  exact ⟨tree, log, after, shown, converted, outside, convert_delivered tree converted outside⟩

end Conversion

end ScratchPage
