import ScratchPage.Proofs.Conversion.Steps
import ScratchPage.Proofs.Disk.Frame

/-!
# Publication

A page and its assets are staged in a directory of their own before they are moved to the output
directory. If that fails, the staged directory is discarded and nothing is left of it. Only an output
directory that was there already can be left with some of the new files, since it takes them over one at
a time; each of its places is then either as it was or holds its new file.
-/

namespace ScratchPage
set_option autoImplicit false

namespace Conversion

open Disk

/-! ## Files -/

/-- Files by name. -/
abbrev Files := String → Option ByteArray

/-- Writes a file in place of the one that has its name. -/
def Files.write (files : Files) (asset : Asset) : Files := fun name =>
  if name = asset.fileName then some asset.bytes else files name

/-- The files of a page. Of several assets with one name the last one counts. -/
def pageFiles (document : String) (assets : List Asset) : Files :=
  assets.foldl Files.write (Files.write (fun _ => none) ⟨pageName, document.toUTF8⟩)

/-- A name has a file once an asset of that name is written. -/
theorem isSome_foldl_write (assets : List Asset) (files : Files) (name : String) :
    (assets.foldl Files.write files name).isSome ↔
      (files name).isSome ∨ name ∈ assets.map (·.fileName) := by
  induction assets generalizing files with
  | nil => simp
  | cons asset assets ih =>
    rw [List.foldl_cons, ih, Files.write]
    by_cases same : name = asset.fileName
    · simp [same]
    · simp [same]

theorem isSome_pageFiles {document : String} {assets : List Asset} {name : String} :
    (pageFiles document assets name).isSome ↔ name = pageName ∨ ∃ asset ∈ assets, asset.fileName = name := by
  rw [pageFiles, isSome_foldl_write, List.mem_map]
  by_cases same : name = pageName
  · simp [Files.write, same]
  · simp [Files.write, same]

/-- No name that flattens to the name of the page is that of an asset. -/
theorem isName_of_flatten {name : String} (same : Asset.flatten name = pageName) :
    Asset.isName name = false := by
  have mapped : name.toList.map (fun c => if c = '/' then '_' else c) = pageName.toList := by
    rw [← String.toList_map]
    exact congrArg String.toList same
  -- The name of the page has no underscore, so no slash was written as one.
  have unchanged : name.toList.map (fun c => if c = '/' then '_' else c) = name.toList := by
    refine (List.map_congr_left fun c mem => ?_).trans (List.map_id _)
    refine if_neg fun slash => ?_
    have written : '_' ∈ pageName.toList := by
      rw [← mapped]
      exact List.mem_map.2 ⟨c, mem, if_pos slash⟩
    exact absurd written (by decide)
  obtain rfl : name = pageName := String.toList_inj.1 (unchanged.symm.trans mapped)
  decide

namespace Prepared

variable {home : List String} {disk : Disk} {options : ConversionOptions}
  (prepared : Prepared home disk options)

/-- The files of the page. -/
def files : Files := pageFiles prepared.document prepared.assets

/-- No asset takes the name of the page. -/
theorem fileName_ne_pageName : ∀ asset ∈ prepared.assets, asset.fileName ≠ pageName := by
  intro asset mem same
  obtain ⟨entry, -, made⟩ := List.mem_filterMap.1 mem
  unfold Asset.select? at made
  split at made
  next isName =>
    cases made
    cases (isName_of_flatten same).symm.trans isName
  next => cases made

end Prepared

/-! ## The staged directory -/

/-- A place for a staged directory: its name is new, and it stands in directories. -/
structure StagedPlace (base : Disk) where
  serial : Nat
  outer : Location
  free : base.Free serial
  around : ∀ place, place <:+ outer → base.isDirectory place = true

namespace StagedPlace

variable {base : Disk} (place : StagedPlace base)

def location : Location := .staged place.serial :: place.outer

theorem ne_nil : place.location ≠ [] := by simp [location]

theorem not_below_of_isPlain {location : Location} (plain : IsPlain location) :
    ¬ place.location <:+ location := plain.not_below_staged place.serial place.outer

/-- Nothing plain is around the staged directory but directories. -/
theorem not_around {location : Location} (plain : IsPlain location)
    (other : base.isDirectory location = false) : ¬ location <:+ place.location := by
  intro below
  obtain same | below := List.suffix_cons_iff.1 below
  · exact plain place.serial (by simp [same])
  · exact Bool.false_ne_true (other.symm.trans (place.around location below))

/-- A file in the staged directory and the place that it may be moved to are apart. -/
theorem apart_of_isPlain {location : Location} (plain : IsPlain location)
    (other : base.isDirectory location = false) (name : Name) :
    ¬ name :: place.location <:+ location ∧ ¬ location <:+ name :: place.location := by
  have off := place.not_below_of_isPlain plain
  refine ⟨fun below => off ((List.suffix_cons _ _).trans below), fun below => ?_⟩
  obtain same | below := List.suffix_cons_iff.1 below
  · exact off (same ▸ List.suffix_cons _ _)
  · exact place.not_around plain other below

theorem item?_base {location : Location} (below : place.location <:+ location) :
    base.item? location = none :=
  place.free location (below.subset (by simp [StagedPlace.location]))

/-- A staged directory starts empty, since its name is free. -/
theorem item?_put_below (name : Name) (inner : Location) :
    (base.put place.location .directory).item? (inner ++ name :: place.location) = none := by
  have below : place.location <:+ inner ++ name :: place.location := ⟨inner ++ [name], by simp⟩
  rw [item?_put place.ne_nil, if_neg, place.item?_base below]
  intro same
  have lengths := congrArg List.length same
  simp only [List.length_append, List.length_cons] at lengths
  omega

/-- Discarding the staged directory leaves no trace where nothing else has changed. -/
theorem item?_erase {disk : Disk} {location : Location}
    (same : ¬ place.location <:+ location → disk.item? location = base.item? location) :
    (disk.erase place.location).item? location = base.item? location := by
  rw [Disk.item?_erase place.ne_nil]
  split
  next below => exact (place.item?_base below).symm
  next apart => exact same apart

end StagedPlace

variable {setting : Setting} {base disk : Disk} {place : StagedPlace base} {output : Location} {files : Files}

/-- Outside the staged directory the disk is as it was. -/
def Outside (place : StagedPlace base) (disk : Disk) : Prop :=
  ∀ location, ¬ place.location <:+ location → disk.item? location = base.item? location

theorem Outside.erase (outside : Outside place disk) : (disk.erase place.location).Same base :=
  fun location => place.item?_erase (outside location)

/-- A file that is written in the staged directory, or a part of it, changes nothing outside. -/
theorem Outside.write (outside : Outside place disk) (name : String) (item : Item) :
    Outside place (disk.put (.plain name :: place.location) item) := by
  intro location apart
  rw [item?_put (by simp), if_neg, outside location apart]
  rintro rfl
  exact apart (List.suffix_cons _ _)

/-- The staged directory holds the files, nothing else and nothing below them. -/
structure Staging (place : StagedPlace base) (files : Files) (disk : Disk) : Prop where
  outside : Outside place disk
  root : disk.item? place.location = some .directory
  unstaged : ∀ serial inner, disk.item? (inner ++ .staged serial :: place.location) = none
  holds : ∀ name inner, disk.item? (inner ++ .plain name :: place.location) =
    if inner = [] then (files name).map .file else none

/-- The invariant of the staging holds of the empty directory. -/
theorem Staging.start : Staging place (fun _ => none) (base.put place.location .directory) where
  outside location apart := by
    rw [item?_put place.ne_nil, if_neg]
    rintro rfl
    exact apart (List.suffix_refl _)
  root := by rw [item?_put place.ne_nil, if_pos rfl]
  unstaged serial inner := place.item?_put_below (.staged serial) inner
  holds name inner := by
    rw [place.item?_put_below]
    simp

/-- The step of the staging: one more file, in place of one with the same name. -/
theorem Staging.write (staging : Staging place files disk) (asset : Asset) :
    Staging place (files.write asset)
      (disk.put (.plain asset.fileName :: place.location) (.file asset.bytes)) where
  outside := staging.outside.write _ _
  root := by rw [item?_put (by simp), if_neg (by simp), staging.root]
  unstaged serial inner := by
    have other : Name.staged serial ≠ .plain asset.fileName := nofun
    rw [item?_put (by simp), if_neg, staging.unstaged]
    intro same
    exact not_suffix_of_ne other (List.suffix_append inner _) ⟨[], same.symm⟩
  holds name inner := by
    rw [item?_put (by simp), staging.holds, Files.write]
    by_cases here : inner = []
    · subst here
      by_cases same : name = asset.fileName
      · simp [same]
      · simp [same]
    · rw [if_neg, if_neg here, if_neg here]
      intro same
      have lengths := congrArg List.length same
      simp only [List.length_append, List.length_cons] at lengths
      have := List.length_pos_iff.2 here
      omega

theorem Staging.holdsFile (staging : Staging place files disk) {name : String} {bytes : ByteArray}
    (has : files name = some bytes) : disk.HoldsFile (.plain name :: place.location) bytes := by
  intro inner
  rw [staging.holds, has]
  rfl

theorem Staging.mem_namesIn (staging : Staging place files disk) {name : String} :
    name ∈ disk.namesIn place.location ↔ (files name).isSome := by
  have holds := staging.holds name []
  rw [List.nil_append, if_pos rfl] at holds
  rw [Disk.mem_namesIn, holds, Option.isSome_map]

/-- The page and the assets are written one after the other. An error leaves its traces in the staged
directory only. -/
theorem ends_fill (place : StagedPlace base) {staged : Staged} (here : staged.location = place.location)
    (document : String) (assets : List Asset) :
    Ends setting (base.put place.location .directory) (fill staged document assets)
      (ending (fun _ => Staging place (pageFiles document assets))
        fun error after => error.phase = .publishing ∧ Outside place after) := by
  have write : ∀ (files : Files) (before : Disk) (error : String → ConversionError) (asset : Asset),
      (∀ words, (error words).phase = .publishing) → Staging place files before →
      Ends setting before (demand error (Host.writeInside staged asset.fileName asset.bytes))
        (ending (fun _ => Staging place (files.write asset))
          fun error after => error.phase = .publishing ∧ Outside place after) := by
    intro files before error asset phase staging
    refine Ends.write ?_ fun after left => ⟨phase _, ?_⟩
    · rw [here]
      exact staging.write asset
    · rw [here] at left
      obtain rfl | ⟨part, rfl⟩ := left
      · exact staging.outside
      · exact staging.outside.write _ _
  have page := write _ _ .pageNotWritten ⟨pageName, document.toUTF8⟩ (fun _ => rfl) .start
  refine Ends.bind (page.imp (fun _ after staging => ?_) fun _ _ left => left)
  -- The files written so far, with the assets to come, make up the page.
  refine Ends.forM (fun rest after => ∃ files, Staging place files after ∧
    rest.foldl Files.write files = pageFiles document assets) ?_ ?_ ⟨_, staging, rfl⟩
  · rintro asset rest before ⟨files, staging, whole⟩
    refine (write files before _ asset (fun _ => rfl) staging).imp (fun _ _ staging => ?_) fun _ _ left => left
    exact ⟨_, staging, whole⟩
  · rintro after ⟨files, staging, whole⟩
    exact whole ▸ staging

/-! ## Taking over the files -/

/-- Some of the files of a directory were replaced, and nothing else has changed: each place of a file is as
it was, or it held no directory and now holds the file. -/
structure PartlyReplaced (before : Disk) (directory : Location) (files : Files) (after : Disk) : Prop where
  others : ∀ location, (∀ name, (files name).isSome → ¬ .plain name :: directory <:+ location) →
    after.item? location = before.item? location
  each : ∀ name bytes, files name = some bytes →
    (∀ inner, after.item? (inner ++ .plain name :: directory) =
      before.item? (inner ++ .plain name :: directory)) ∨
    before.isDirectory (.plain name :: directory) = false ∧
      after.HoldsFile (.plain name :: directory) bytes

/-- The output directory takes over the staged files. Those whose names are still to come are waiting. -/
structure Moving (place : StagedPlace base) (output : Location) (files : Files) (rest : List String)
    (disk : Disk) : Prop where
  others : ∀ location, ¬ place.location <:+ location →
    (∀ name, (files name).isSome → ¬ .plain name :: output <:+ location) →
    disk.item? location = base.item? location
  kept : ∀ name ∈ rest, ∀ inner, ¬ place.location <:+ inner ++ .plain name :: output →
    disk.item? (inner ++ .plain name :: output) = base.item? (inner ++ .plain name :: output)
  waiting : ∀ name ∈ rest, ∀ bytes, files name = some bytes →
    disk.HoldsFile (.plain name :: place.location) bytes
  moved : ∀ name, name ∉ rest → ∀ bytes, files name = some bytes →
    base.isDirectory (.plain name :: output) = false ∧ disk.HoldsFile (.plain name :: output) bytes

theorem Staging.moving (staging : Staging place files disk) {names : List String}
    (all : ∀ name, name ∈ names ↔ (files name).isSome) : Moving place output files names disk where
  others location apart _ := staging.outside location apart
  kept _ _ _ apart := staging.outside _ apart
  waiting _ _ _ has := staging.holdsFile has
  moved name out bytes has := absurd ((all name).2 (by simp [has])) out

/-- One file is taken over: it waits no longer, and the others wait or were taken over as before. -/
theorem Moving.step {name : String} {rest : List String} {bytes : ByteArray} (plain : IsPlain output)
    (moving : Moving place output files (name :: rest) disk) (new : name ∉ rest)
    (has : files name = some bytes) (other : disk.isDirectory (.plain name :: output) = false) :
    Moving place output files rest
      (disk.replace (.plain name :: place.location) (.plain name :: output)) := by
  have plainTarget : IsPlain (.plain name :: output) := plain.cons name
  have off := place.not_below_of_isPlain plainTarget
  have notDirectory : base.isDirectory (.plain name :: output) = false :=
    (isDirectory_congr (moving.kept name (by simp) [] off)).symm.trans other
  -- The target is not around the staged directory, since only directories are.
  have off' := place.not_around plainTarget notDirectory
  obtain ⟨apart, apart'⟩ := place.apart_of_isPlain plainTarget notDirectory (.plain name)
  have others : ∀ next ∈ rest, Name.plain next ≠ .plain name := by
    rintro next mem ⟨⟩
    exact new mem
  have frame : ∀ location, ¬ .plain name :: place.location <:+ location →
      ¬ .plain name :: output <:+ location →
      (disk.replace (.plain name :: place.location) (.plain name :: output)).item? location =
        disk.item? location := fun _ => item?_replace_of_not_suffix apart apart'
  constructor
  case others =>
    intro location offStaged offAll
    rw [frame location (fun below => offStaged ((List.suffix_cons _ _).trans below))
      (offAll name (by simp [has]))]
    exact moving.others location offStaged offAll
  case kept =>
    intro next mem inner offStaged
    rw [frame _ (fun below => offStaged ((List.suffix_cons _ _).trans below))
      (not_suffix_of_ne (others next mem) (List.suffix_append _ _))]
    exact moving.kept next (List.mem_cons_of_mem _ mem) inner offStaged
  case waiting =>
    intro next mem nextBytes nextHas inner
    have inside : .plain next :: place.location <:+ inner ++ .plain next :: place.location :=
      List.suffix_append _ _
    rw [frame _ (not_suffix_of_ne (others next mem) inside)
      (not_both_suffix off off' ((List.suffix_cons _ _).trans inside))]
    exact moving.waiting next (List.mem_cons_of_mem _ mem) nextBytes nextHas inner
  case moved =>
    intro done out doneBytes doneHas
    by_cases same : done = name
    · subst same
      obtain rfl : bytes = doneBytes := Option.some.inj (has.symm.trans doneHas)
      exact ⟨notDirectory, (moving.waiting done (by simp) bytes has).replace apart apart'⟩
    · obtain ⟨wasFile, holds⟩ := moving.moved done (by simp [same, out]) doneBytes doneHas
      refine ⟨wasFile, fun inner => ?_⟩
      have ne : Name.plain done ≠ .plain name := by
        rintro ⟨⟩
        exact same rfl
      by_cases below : .plain name :: place.location <:+ inner ++ .plain done :: output
      · rw [item?_replace_source apart apart' below, if_neg]
        rintro rfl
        exact place.not_below_of_isPlain (plain.cons done) ((List.suffix_cons _ _).trans below)
      · rw [frame _ below (not_suffix_of_ne ne (List.suffix_append _ _))]
        exact holds inner

/-- Discarding what is still staged leaves an output directory with some of the files. -/
theorem Moving.erase {rest : List String} (plain : IsPlain output)
    (moving : Moving place output files rest disk) :
    PartlyReplaced base output files (disk.erase place.location) where
  others location off := place.item?_erase fun apart => moving.others location apart off
  each name bytes has := by
    by_cases waits : name ∈ rest
    · left
      exact fun inner => place.item?_erase (moving.kept name waits inner)
    · right
      obtain ⟨notDirectory, holds⟩ := moving.moved name waits bytes has
      exact ⟨notDirectory, holds.erase place.ne_nil (place.not_below_of_isPlain (plain.cons name))⟩

/-- The path of the output directory still leads to it. -/
theorem Moving.directory? {rest : List String} (moving : Moving place output files rest disk)
    {home : List String} {path : String} (found : base.directory? home path = some output) :
    disk.directory? home path = some output := by
  refine (directory?_of_keeps found fun location all => ?_).2
  have here := all location (List.suffix_refl location)
  have offStaged : ¬ place.location <:+ location := by
    intro below
    simp [Disk.isDirectory, place.item?_base below] at here
  by_cases off : ∀ name, (files name).isSome → ¬ .plain name :: output <:+ location
  · exact (isDirectory_congr (moving.others location offStaged off)).trans here
  · simp only [not_forall, Decidable.not_not] at off
    obtain ⟨name, has, inner, rfl⟩ := off
    by_cases waits : name ∈ rest
    · exact (isDirectory_congr (moving.kept name waits inner offStaged)).trans here
    · obtain ⟨bytes, has⟩ := Option.isSome_iff_exists.1 has
      have wasFile := (moving.moved name waits bytes has).1
      exact absurd (all _ (List.suffix_append _ _)) (by simp [wasFile])

/-! ## Whole publications -/

theorem Outside.agreeOff (outside : Outside place disk) : AgreeOff place.serial disk base := by
  intro location off
  refine outside location fun below => off (below.subset ?_)
  simp [StagedPlace.location]

/-- The errors that stop an output directory while it takes over files. -/
inductive StopsTakeover : ConversionError → Prop
  | unlisted (words : String) : StopsTakeover (.filesUnlisted words)
  | notMoved (path : String) : StopsTakeover (.fileNotMoved path)

theorem StopsTakeover.phase_eq {error : ConversionError} (stops : StopsTakeover error) :
    error.phase = .publishing := by
  cases stops <;> rfl

/-- The output directory takes over the staged files one at a time, in any order, until an error stops
that. -/
theorem ends_moves {staged : Staged} (here : staged.location = place.location) {path : String}
    (found : base.directory? setting.home path = some output) {names : List String} (nodup : names.Nodup)
    (all : ∀ name, name ∈ names ↔ (files name).isSome) (staging : Staging place files disk) :
    Ends setting disk
      (names.forM fun name => do
        let words ← demand .filesUnlisted (Host.stagedPath staged name)
        demand (fun _ => .fileNotMoved words) (Host.moveStaged staged name path))
      (ending (fun _ => Moving place output files []) fun error after =>
        StopsTakeover error ∧ ∃ rest, Moving place output files rest after) := by
  refine Ends.forM
    (fun rest after => rest.Nodup ∧ (∀ name ∈ rest, name ∈ names) ∧ Moving place output files rest after)
    ?_ (fun _ all => all.2.2) ⟨nodup, fun _ mem => mem, staging.moving all⟩
  rintro name rest before ⟨nodup, known, moving⟩
  obtain ⟨new, nodup⟩ := List.nodup_cons.1 nodup
  have plain := isPlain_directory? found
  refine Ends.bind (Ends.inspect (fun words _ => ?_) ⟨.unlisted _, _, moving⟩)
  refine Ends.change (fun _ after moved => ?_) ⟨.notMoved _, _, moving⟩
  simp only [moving.directory? found, Session.moveOnto, Option.map_some, Option.bind_some] at moved
  split at moved
  · cases moved
  next free =>
    cases moved
    obtain ⟨bytes, has⟩ := Option.isSome_iff_exists.1 ((all name).1 (known name (by simp)))
    refine ⟨nodup, fun other mem => known other (List.mem_cons_of_mem _ mem), ?_⟩
    rw [here]
    exact moving.step plain new has (by simpa using free)

/-- After an error, nothing has changed, or an output directory that was there already has taken over some
of the files. -/
def Withdrawn (home : List String) (before : Disk) (output : String) (files : Files) (error : ConversionError)
    (after : Disk) : Prop :=
  after.Same before ∨
    ∃ directory, before.directory? home output = some directory ∧ StopsTakeover error ∧
      PartlyReplaced before directory files after

/-- The output has the staged files: a directory that was there has taken them over, or the staged directory
was moved to a place where nothing stood. -/
inductive Settled (home : List String) (place : StagedPlace base) (path : String) (files : Files) : Disk → Prop
  | takenOver {directory : Location} {disk : Disk} (found : base.directory? home path = some directory)
      (moving : Moving place directory files [] disk) : Settled home place path files disk
  | moved {target : Location} {disk : Disk} (staging : Staging place files disk)
      (placed : disk.place? home (withoutSlashes path) = some target) (nothing : disk.item? target = none) :
      Settled home place path files (disk.move place.location target)

/-- A filled directory is moved as a whole where nothing stands; a directory that is there takes over its
files. -/
theorem ends_settle {staged : Staged} (here : staged.location = place.location) {path : String}
    (staging : Staging place files disk) :
    Ends setting disk (settle staged path) (ending (fun _ => Settled setting.home place path files)
      fun error after => error.phase = .publishing ∧
        Withdrawn setting.home base path files error (after.erase place.location)) := by
  have untouched := staging.outside.erase
  unfold settle
  refine Ends.bind (Ends.lift fun _ _ => ?_)
  change Ends setting disk (if (disk.look? setting.home path).isSome then _ else _) _
  split
  · refine Ends.bind (Ends.lift fun _ _ => ?_)
    change Ends setting disk (if (disk.directory? setting.home path).isSome then _ else _) _
    split
    next isDirectory =>
      obtain ⟨directory, found⟩ := Option.isSome_iff_exists.1 isDirectory
      have foundBase : base.directory? setting.home path = some directory :=
        (directory?_congr staging.outside.agreeOff _ path).symm.trans found
      refine Ends.bind (Ends.inspect (fun names listed => ?_) ⟨rfl, .inl untouched⟩)
      have arranged : names.Perm (disk.namesIn place.location) := by
        cases listed
        rw [here]
        exact setting.order_perm _
      have nodup : names.Nodup := arranged.nodup_iff.2 (nodup_namesIn disk _)
      have all : ∀ name, name ∈ names ↔ (files name).isSome :=
        fun name => arranged.mem_iff.trans staging.mem_namesIn
      refine (ends_moves here foundBase nodup all staging).imp (fun _ _ moving => .takenOver foundBase moving) ?_
      rintro error after ⟨cause, rest, moving⟩
      have replaced := moving.erase (isPlain_directory? foundBase)
      exact ⟨cause.phase_eq, .inr ⟨directory, foundBase, cause, replaced⟩⟩
    next => exact Ends.throw ⟨rfl, .inl untouched⟩
  · refine Ends.change (fun _ after moved => ?_) ⟨rfl, .inl untouched⟩
    obtain ⟨next, acted, same⟩ := Option.map_eq_some_iff.1 moved
    cases same
    obtain ⟨target, placed, acted⟩ := Option.bind_eq_some_iff.1 acted
    unfold Session.moveWhole at acted
    split at acted
    · cases acted
    next nothing =>
      cases acted
      rw [here]
      exact .moved staging placed (by simpa using nothing)

/-- A publication creates directories, fills a staged directory and moves it. What it stages is gone
afterwards; an error may leave only some of the directories. -/
theorem ends_publish (disk : Disk) (path document : String) (assets : List Asset) :
    Ends setting disk (publish path document assets)
      (ending
        (fun _ after => ∃ place : StagedPlace (disk.createDirectories setting.home (Path.parent path)).2,
          ∃ last, Settled setting.home place path (pageFiles document assets) last ∧
            after = last.erase place.location)
        fun error after => error.phase = .publishing ∧ ∃ count,
          Withdrawn setting.home (disk.createFirst setting.home (Path.parent path) count).2 path
            (pageFiles document assets) error after) := by
  unfold publish
  have unchanged : ∀ created : Disk, created.Same created := fun _ _ => rfl
  refine Ends.bind (Ends.createDirectories ?_ fun count => ⟨rfl, count, .inl (unchanged _)⟩)
  refine Ends.bind (Ends.stage (fun directory found => ?_) ⟨rfl, _, .inl (unchanged _)⟩)
  let place : StagedPlace (disk.createDirectories setting.home (Path.parent path)).2 :=
    ⟨_, directory, free_freshSerial _, fun _ => isDirectory_of_suffix found⟩
  have here : (⟨Disk.freshLocation _ directory, Path.parent path⟩ : Staged).location = place.location := rfl
  refine Ends.discarding (Ends.bind ?_)
  refine (ends_fill place here document assets).imp (fun _ after staging => ?_) ?_
  · refine (ends_settle here staging).imp (fun _ last settled => ⟨place, last, settled, rfl⟩) ?_
    exact fun _ _ ⟨phase, withdrawn⟩ => ⟨phase, _, withdrawn⟩
  · exact fun _ _ ⟨phase, outside⟩ => ⟨phase, _, .inl outside.erase⟩

/-! ## Publications next to a staged file -/

/-- What is said of a partial replacement depends only on the items of the disk before it. -/
theorem PartlyReplaced.congr {before before' after : Disk}
    (replaced : PartlyReplaced before output files after) (same : before.Same before') :
    PartlyReplaced before' output files after where
  others location off := (replaced.others location off).trans (same location)
  each name bytes has := by
    obtain kept | ⟨wasFile, holds⟩ := replaced.each name bytes has
    · exact .inl fun inner => (kept inner).trans (same _)
    · exact .inr ⟨(isDirectory_congr (same _)).symm.trans wasFile, holds⟩

/-- A staged file next to the publication can be discarded on both sides. -/
theorem PartlyReplaced.erase {before after : Disk} (replaced : PartlyReplaced before output files after)
    (plain : IsPlain output) (serial : Nat) (outer : Location) :
    PartlyReplaced (before.erase (.staged serial :: outer)) output files
      (after.erase (.staged serial :: outer)) where
  others location off := item?_erase_congr (by simp) (replaced.others location off)
  each name bytes has := by
    have off := (plain.cons name).not_below_staged serial outer
    obtain kept | ⟨wasFile, holds⟩ := replaced.each name bytes has
    · left
      exact fun inner => item?_erase_congr (by simp) (kept inner)
    · right
      have target : (before.erase (.staged serial :: outer)).item? (.plain name :: output) =
          before.item? (.plain name :: output) := by
        rw [item?_erase (by simp), if_neg off]
      exact ⟨(isDirectory_congr target).trans wasFile, holds.erase (by simp) off⟩

/-- A file that was staged before the publication can be discarded after it. -/
theorem Withdrawn.erase {home : List String} {before before' after : Disk} {path : String}
    {error : ConversionError} {serial : Nat} {outer : Location}
    (withdrawn : Withdrawn home before path files error after) (agree : AgreeOff serial before before')
    (same : (before.erase (.staged serial :: outer)).Same before') :
    Withdrawn home before' path files error (after.erase (.staged serial :: outer)) := by
  obtain unchanged | ⟨directory, found, cause, replaced⟩ := withdrawn
  · left
    exact Same.trans (fun location => item?_erase_congr (by simp) (unchanged location)) same
  · right
    have plain := isPlain_directory? found
    refine ⟨directory, (directory?_congr agree home path).symm.trans found, cause, ?_⟩
    exact (replaced.erase plain serial outer).congr same

end Conversion

end ScratchPage
