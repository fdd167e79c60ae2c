import Mathlib.Data.List.Infix
import ScratchPage.Disk.Walk

/-!
# What stands where after a change

Disks are compared by what stands at each location. Putting, erasing and replacing change only the
locations they name and those below them. No path spells a staged name, so walks along paths see the same
on two disks that differ only at locations with such a name, and the directories that a walk creates are
the same. A staged name that no location of a disk has can therefore be used and taken away again without
a trace.
-/

namespace ScratchPage
set_option autoImplicit false

namespace Disk

variable {disk a b c : Disk} {location place source target : Location} {item : Item}

/-- The disks hold the same at every location. -/
def Same (a b : Disk) : Prop := ∀ location, a.item? location = b.item? location

theorem Same.trans (first : Same a b) (second : Same b c) : Same a c :=
  fun location => (first location).trans (second location)

/-- A disk that grew by directories where nothing stood. -/
def Grown (a b : Disk) : Prop :=
  ∀ location, b.item? location = a.item? location ∨
    a.item? location = none ∧ b.item? location = some .directory

/-- A file stands at the location, and nothing below it. -/
def HoldsFile (disk : Disk) (location : Location) (bytes : ByteArray) : Prop :=
  ∀ inner, disk.item? (inner ++ location) = if inner = [] then some (.file bytes) else none

/-! ## Single changes -/

theorem isDirectory_congr (same : a.item? location = b.item? location) :
    a.isDirectory location = b.isDirectory location := by
  unfold Disk.isDirectory
  rw [same]

theorem item?_of_ne_nil (inside : location ≠ []) :
    disk.item? location = (disk.items.find? fun e => e.1 == location).map (·.2) := by
  cases location with
  | nil => exact absurd rfl inside
  | cons name outer => rfl

/-- Leaving out items at other locations does not change what is found. -/
theorem find?_filter_of_kept {items : List (Location × Item)} (keep : Location → Bool)
    (kept : keep location = true) :
    (items.filter fun e => keep e.1).find? (fun e => e.1 == location) =
      items.find? fun e => e.1 == location := by
  induction items with
  | nil => rfl
  | cons e items ih =>
    by_cases same : e.1 = location
    · simp [same, kept]
    · by_cases keeps : keep e.1 = true
      · simp [keeps, same, ih]
      · simp [keeps, same, ih]

/-- A place that is not kept has no item. -/
theorem find?_filter_of_dropped {items : List (Location × Item)} (keep : Location → Bool)
    (dropped : keep location = false) :
    (items.filter fun e => keep e.1).find? (fun e => e.1 == location) = none := by
  rw [List.find?_eq_none]
  intro e mem here
  obtain rfl : e.1 = location := by simpa using here
  have keeps := (List.mem_filter.1 mem).2
  rw [dropped] at keeps
  cases keeps

/-- What is put somewhere is there, and nothing else changes. -/
theorem item?_put (inside : place ≠ []) :
    (disk.put place item).item? location = if location = place then some item else disk.item? location := by
  by_cases root : location = []
  · subst root
    rw [if_neg (Ne.symm inside)]
    rfl
  · rw [item?_of_ne_nil root, item?_of_ne_nil root, put, List.find?_cons]
    by_cases here : location = place
    · simp [here]
    · have other : (place == location) = false := by simpa using Ne.symm here
      have kept : (location != place) = true := by simpa using here
      simp only [other, if_neg here]
      rw [find?_filter_of_kept (· != place) kept]

theorem not_isSuffixOf (apart : ¬ place <:+ location) : (!place.isSuffixOf location) = true := by
  rw [Bool.not_eq_true', ← Bool.not_eq_true, List.isSuffixOf_iff_suffix]
  exact apart

/-- What is erased is gone with all that is below it, and nothing else changes. -/
theorem item?_erase (inside : place ≠ []) :
    (disk.erase place).item? location = if place <:+ location then none else disk.item? location := by
  by_cases root : location = []
  · subst root
    rw [if_neg (by simpa using inside)]
    rfl
  · rw [item?_of_ne_nil root, item?_of_ne_nil root, erase]
    by_cases below : place <:+ location
    · have dropped : (!place.isSuffixOf location) = false := by simpa using below
      rw [if_pos below, find?_filter_of_dropped (fun l => !place.isSuffixOf l) dropped]
      rfl
    · rw [if_neg below, find?_filter_of_kept (fun l => !place.isSuffixOf l) (not_isSuffixOf below)]

/-- Erasing a place keeps disks alike wherever they are. -/
theorem item?_erase_congr (inside : place ≠ []) (same : a.item? location = b.item? location) :
    (a.erase place).item? location = (b.erase place).item? location := by
  rw [item?_erase inside, item?_erase inside, same]

/-- A file stays where something apart from it is erased. -/
theorem HoldsFile.erase {bytes : ByteArray} (holds : disk.HoldsFile location bytes) (inside : place ≠ [])
    (off : ¬ place <:+ location) : (disk.erase place).HoldsFile location bytes := by
  intro inner
  rw [item?_erase inside, holds inner]
  by_cases here : inner = []
  · subst here
    exact if_neg off
  · simp [here]

/-- A move leaves what is not below its source. -/
theorem rebase_of_not_suffix (apart : ¬ source <:+ location) : rebase source target location = location := by
  induction location with
  | nil =>
    have other : source ≠ [] := by
      rintro rfl
      exact apart (List.suffix_refl _)
    simp [rebase, other]
  | cons name outer ih =>
    have other : name :: outer ≠ source := by
      rintro rfl
      exact apart (List.suffix_refl _)
    rw [rebase, if_neg other, ih fun below => apart (below.trans (List.suffix_cons _ _))]

/-- A move carries what is below its source. -/
theorem rebase_append (inside : source ≠ []) (inner : Location) :
    rebase source target (inner ++ source) = inner ++ target := by
  induction inner with
  | nil =>
    cases source with
    | nil => exact absurd rfl inside
    | cons name outer => simp [rebase]
  | cons name inner ih =>
    have other : name :: (inner ++ source) ≠ source := by
      intro same
      have lengths := congrArg List.length same
      simp only [List.length_cons, List.length_append] at lengths
      omega
    rw [List.cons_append, rebase, if_neg other, ih, List.cons_append]

/-- Where locations are carried one to one, the items go with them. -/
theorem find?_map_location {items : List (Location × Item)} {carry : Location → Location} {old new : Location}
    (same : ∀ e ∈ items, carry e.1 = new ↔ e.1 = old) :
    ((items.map fun e => (carry e.1, e.2)).find? fun e => e.1 == new).map (·.2) =
      (items.find? fun e => e.1 == old).map (·.2) := by
  induction items with
  | nil => rfl
  | cons e items ih =>
    have here := same e (by simp)
    have others := ih fun e mem => same e (by simp [mem])
    rw [List.map_cons, List.find?_cons, List.find?_cons]
    by_cases found : e.1 = old
    · rw [beq_iff_eq.2 (here.2 found), beq_iff_eq.2 found]
      rfl
    · rw [beq_eq_false_iff_ne.2 (mt here.1 found), beq_eq_false_iff_ne.2 found]
      exact others

section

variable (apart : ¬ source <:+ target) (apart' : ¬ target <:+ source)

include apart apart'

theorem not_both_suffix (below : source <:+ location) : ¬ target <:+ location := by
  intro below'
  obtain first | second := List.suffix_or_suffix_of_suffix below below'
  · exact apart first
  · exact apart' second

theorem ne_nil_of_apart : source ≠ [] ∧ target ≠ [] := by
  constructor
  · rintro rfl
    exact apart List.nil_suffix
  · rintro rfl
    exact apart' List.nil_suffix

/-- What stood at the source and below it stands at the target. -/
theorem item?_replace_append (inner : Location) :
    (disk.replace source target).item? (inner ++ target) = disk.item? (inner ++ source) := by
  obtain ⟨inside, inside'⟩ := ne_nil_of_apart apart apart'
  have erased : (disk.erase target).item? (inner ++ source) = disk.item? (inner ++ source) := by
    rw [item?_erase inside', if_neg (not_both_suffix apart apart' (List.suffix_append _ _))]
  rw [← erased, item?_of_ne_nil (by simp [inside']), item?_of_ne_nil (by simp [inside])]
  refine find?_map_location fun e mem => ⟨fun carried => ?_, fun same => ?_⟩
  · by_cases below : source <:+ e.1
    · obtain ⟨rest, same⟩ := below
      rw [← same, rebase_append inside] at carried
      rw [← same, List.append_cancel_right carried]
    · rw [rebase_of_not_suffix below] at carried
      have kept := (List.mem_filter.1 mem).2
      rw [carried, List.isSuffixOf_iff_suffix.2 (List.suffix_append _ _)] at kept
      cases kept
  · rw [same, rebase_append inside]

/-- Nothing is left at the source. -/
theorem item?_replace_source (below : source <:+ location) :
    (disk.replace source target).item? location = none := by
  obtain ⟨inside, -⟩ := ne_nil_of_apart apart apart'
  have root : location ≠ [] := by
    rintro rfl
    exact inside (List.suffix_nil.1 below)
  rw [item?_of_ne_nil root, Option.map_eq_none_iff, List.find?_eq_none]
  intro e mem here
  obtain ⟨e, -, rfl⟩ := List.mem_map.1 mem
  have carried : rebase source target e.1 = location := by simpa using here
  by_cases under : source <:+ e.1
  · obtain ⟨rest, same⟩ := under
    rw [← same, rebase_append inside] at carried
    exact not_both_suffix apart apart' below ⟨rest, carried⟩
  · rw [rebase_of_not_suffix under] at carried
    exact under (carried ▸ below)

/-- A replacement changes nothing apart from its source and its target. -/
theorem item?_replace_of_not_suffix (off : ¬ source <:+ location) (off' : ¬ target <:+ location) :
    (disk.replace source target).item? location = disk.item? location := by
  obtain ⟨inside, inside'⟩ := ne_nil_of_apart apart apart'
  have erased : (disk.erase target).item? location = disk.item? location := by
    rw [item?_erase inside', if_neg off']
  by_cases root : location = []
  · subst root
    rfl
  · rw [← erased, item?_of_ne_nil root, item?_of_ne_nil root]
    refine find?_map_location fun e _ => ⟨fun carried => ?_, fun same => ?_⟩
    · by_cases below : source <:+ e.1
      · obtain ⟨rest, same⟩ := below
        rw [← same, rebase_append inside] at carried
        exact absurd ⟨rest, carried⟩ off'
      · rwa [rebase_of_not_suffix below] at carried
    · rw [same, rebase_of_not_suffix off]

theorem HoldsFile.replace {bytes : ByteArray} (holds : disk.HoldsFile source bytes) :
    (disk.replace source target).HoldsFile target bytes := by
  intro inner
  rw [item?_replace_append apart apart']
  exact holds inner

end

theorem nodup_eraseDups (names : List String) : names.eraseDups.Nodup := by
  induction length : names.length using Nat.strongRecOn generalizing names with
  | ind n ih =>
    cases names with
    | nil => simp
    | cons name names =>
      rw [List.eraseDups_cons, List.nodup_cons]
      refine ⟨by simp, ih _ ?_ _ rfl⟩
      have shorter := List.length_filter_le (fun other => !other == name) names
      rw [List.length_cons] at length
      omega

theorem nodup_namesIn (disk : Disk) (directory : Location) : (disk.namesIn directory).Nodup :=
  nodup_eraseDups _

/-- A directory lists the plain names that something stands under. -/
theorem mem_namesIn {directory : Location} {name : String} :
    name ∈ disk.namesIn directory ↔ (disk.item? (.plain name :: directory)).isSome := by
  rw [namesIn, List.mem_eraseDups, List.mem_filterMap, item?_of_ne_nil (by simp), Option.isSome_map,
    List.find?_isSome]
  refine exists_congr fun e => and_congr_right fun _ => ?_
  rw [beq_iff_eq]
  constructor
  · intro named
    split at named
    next inner outer here =>
      simp only [Option.ite_none_right_eq_some, Option.some.injEq] at named
      rw [here, named.1, named.2]
    next => cases named
  · intro here
    simp [here]

/-- Names in one directory are not below each other. -/
theorem not_suffix_of_ne {name other : Name} {outer : Location} (ne : name ≠ other)
    (below : name :: outer <:+ location) : ¬ other :: outer <:+ location := by
  intro below'
  obtain inside | inside := List.suffix_or_suffix_of_suffix below below'
  · exact ne (List.cons.inj (inside.eq_of_length rfl)).1
  · exact ne (List.cons.inj (inside.eq_of_length rfl)).1.symm

/-! ## Staged names -/

/-- No location of the disk has the staged name. -/
def Free (disk : Disk) (serial : Nat) : Prop :=
  ∀ location, Name.staged serial ∈ location → disk.item? location = none

/-- The bound of a location is a bound of each name in it. -/
theorem le_foldl_serialBound (location : Location) (bound : Nat) :
    bound ≤ location.foldl (fun b name => max b (serialBound name)) bound ∧
      ∀ name ∈ location, serialBound name ≤ location.foldl (fun b name => max b (serialBound name)) bound := by
  induction location generalizing bound with
  | nil => simp
  | cons name outer ih =>
    obtain ⟨first, others⟩ := ih (max bound (serialBound name))
    refine ⟨by simp only [List.foldl_cons]; omega, fun other mem => ?_⟩
    obtain rfl | mem := List.mem_cons.1 mem
    · simp only [List.foldl_cons]
      omega
    · exact others other mem

/-- The fresh serial is above all that are in use. -/
theorem free_freshSerial (disk : Disk) : disk.Free disk.freshSerial := by
  -- The fold over the items only grows, so its end bounds every name of every location.
  have bounded : ∀ (items : List (Location × Item)) (bound : Nat),
      bound ≤ items.foldl (fun bound e => e.1.foldl (fun b name => max b (serialBound name)) bound) bound ∧
        ∀ e ∈ items, ∀ name ∈ e.1, serialBound name ≤
          items.foldl (fun bound e => e.1.foldl (fun b name => max b (serialBound name)) bound) bound := by
    intro items
    induction items with
    | nil => simp
    | cons e items ih =>
      intro bound
      obtain ⟨grows, names⟩ := le_foldl_serialBound e.1 bound
      obtain ⟨first, others⟩ := ih (e.1.foldl (fun b name => max b (serialBound name)) bound)
      refine ⟨grows.trans first, fun other mem name inside => ?_⟩
      obtain rfl | mem := List.mem_cons.1 mem
      · exact (names name inside).trans first
      · exact others other mem name inside
  intro location mem
  have root : location ≠ [] := by
    rintro rfl
    cases mem
  rw [item?_of_ne_nil root, Option.map_eq_none_iff, List.find?_eq_none]
  intro e inside here
  obtain rfl : e.1 = location := by simpa using here
  have small := (bounded disk.items 0).2 e inside _ mem
  simp only [serialBound, freshSerial] at small
  omega

/-- The disks hold the same wherever the staged name does not occur. -/
def AgreeOff (serial : Nat) (a b : Disk) : Prop :=
  ∀ location, Name.staged serial ∉ location → a.item? location = b.item? location

theorem agreeOff_erase (disk : Disk) (serial : Nat) (outer : Location) :
    AgreeOff serial (disk.erase (.staged serial :: outer)) disk := by
  intro location off
  rw [item?_erase (by simp), if_neg]
  exact fun below => off (below.subset (by simp))

theorem AgreeOff.isDirectory {serial : Nat} (agree : AgreeOff serial a b)
    (off : Name.staged serial ∉ location) : a.isDirectory location = b.isDirectory location :=
  isDirectory_congr (agree location off)

/-- The location has no staged name. -/
def IsPlain (location : Location) : Prop := ∀ serial, Name.staged serial ∉ location

theorem IsPlain.cons (plain : IsPlain location) (name : String) : IsPlain (.plain name :: location) := by
  intro serial mem
  obtain other | mem := List.mem_cons.1 mem
  · cases other
  · exact plain serial mem

theorem isPlain_nil : IsPlain [] := by
  intro serial mem
  cases mem

theorem isPlain_locationOf (names : List String) : IsPlain (locationOf names) := by
  intro serial mem
  obtain ⟨name, -, other⟩ := List.mem_map.1 mem
  cases other

theorem IsPlain.not_below_staged (plain : IsPlain location) (serial : Nat) (outer : Location) :
    ¬ .staged serial :: outer <:+ location :=
  fun below => plain serial (below.subset (by simp))

theorem not_isPlain_freshLocation (disk : Disk) (outer : Location) : ¬ IsPlain (disk.freshLocation outer) :=
  fun plain => plain disk.freshSerial (by simp [freshLocation])

/-- A step from a plain location leads to a plain location. -/
theorem IsPlain.enter? (plain : IsPlain location) {step : Step} {there : Location}
    (entered : Disk.enter? location step = some there) : IsPlain there := by
  cases step with
  | stay =>
    cases entered
    exact plain
  | up =>
    cases entered
    exact fun serial mem => plain serial (List.mem_of_mem_tail mem)
  | down name =>
    simp only [Disk.enter?, Option.ite_none_right_eq_some, Option.some.injEq] at entered
    obtain ⟨-, rfl⟩ := entered
    exact plain.cons name

/-! ## Walks -/

/-- Walks do not see staged names, so disks that agree apart from them are walked alike. -/
theorem walk_congr {serial : Nat} (agree : AgreeOff serial a b) {here : Location} (plain : IsPlain here)
    (steps : List Step) : a.walk here steps = b.walk here steps := by
  induction steps generalizing here with
  | nil => rfl
  | cons step rest ih =>
    unfold Disk.walk
    rw [agree.isDirectory (plain serial)]
    cases entered : Disk.enter? here step with
    | none => rfl
    | some there => simp only [Option.bind_some, ih (plain.enter? entered)]

/-- A walk from a plain location ends at a plain location. -/
theorem isPlain_walk {here there : Location} (plain : IsPlain here) {steps : List Step}
    (walked : disk.walk here steps = some there) : IsPlain there := by
  induction steps generalizing here with
  | nil =>
    cases walked
    exact plain
  | cons step rest ih =>
    unfold Disk.walk at walked
    split at walked
    · obtain ⟨next, entered, others⟩ := Option.bind_eq_some_iff.1 walked
      exact ih (plain.enter? entered) others
    · cases walked

theorem locate?_congr {serial : Nat} (agree : AgreeOff serial a b) (home : List String) (path : String) :
    a.locate? home path = b.locate? home path := by
  unfold Disk.locate?
  rw [walk_congr agree isPlain_nil]

theorem isPlain_locate? {home : List String} {path : String}
    (located : disk.locate? home path = some location) : IsPlain location := by
  unfold Disk.locate? at located
  split at located
  · exact isPlain_walk isPlain_nil located
  · cases located

/-- Paths lead to the same directory on disks that agree apart from staged names. -/
theorem directory?_congr {serial : Nat} (agree : AgreeOff serial a b) (home : List String) (path : String) :
    a.directory? home path = b.directory? home path := by
  unfold Disk.directory?
  rw [locate?_congr agree]
  cases located : b.locate? home path with
  | none => rfl
  | some location =>
    simp only [Option.filter, agree.isDirectory (isPlain_locate? located serial)]

theorem isPlain_directory? {home : List String} {path : String}
    (found : disk.directory? home path = some location) : IsPlain location :=
  isPlain_locate? (Option.eq_some_of_filter_eq_some found)

/-- Every place around a location is a directory. -/
def Around (disk : Disk) (location : Location) : Prop :=
  ∀ outer, outer <:+ location → outer ≠ location → disk.isDirectory outer = true

/-- A step keeps directories all around. Upwards there are fewer of them, and downwards the one that is left is
added. -/
theorem Around.enter? {here there : Location} (around : disk.Around here)
    (isDirectory : disk.isDirectory here = true) {step : Step}
    (entered : Disk.enter? here step = some there) : disk.Around there := by
  cases step with
  | stay =>
    cases entered
    exact around
  | up =>
    cases entered
    cases here with
    | nil => exact around
    | cons name outer =>
      intro place below _
      refine around place (below.trans (List.suffix_cons _ _)) ?_
      rintro rfl
      exact absurd below.length_le (by simp)
  | down name =>
    simp only [Disk.enter?, Option.ite_none_right_eq_some, Option.some.injEq] at entered
    obtain ⟨-, rfl⟩ := entered
    intro place below other
    obtain same | below := List.suffix_cons_iff.1 below
    · exact absurd same other
    · by_cases same : place = here
      · exact same ▸ isDirectory
      · exact around place below same

theorem Around.isDirectory (around : disk.Around location) (isDirectory : disk.isDirectory location = true)
    (below : place <:+ location) : disk.isDirectory place = true := by
  by_cases same : place = location
  · exact same ▸ isDirectory
  · exact around place below same

theorem around_nil : disk.Around [] := by
  intro outer below other
  exact absurd (List.suffix_nil.1 below) other

/-- A walk stays possible if its directories do, each of which stands in directories. -/
theorem Around.walk {here there : Location} (around : a.Around here) {steps : List Step}
    (walked : a.walk here steps = some there)
    (keeps : ∀ place, (∀ outer, outer <:+ place → a.isDirectory outer = true) → b.isDirectory place = true) :
    a.Around there ∧ b.walk here steps = some there := by
  induction steps generalizing here with
  | nil =>
    cases walked
    exact ⟨around, rfl⟩
  | cons step rest ih =>
    unfold Disk.walk at walked ⊢
    split at walked
    next isDirectory =>
      obtain ⟨next, entered, others⟩ := Option.bind_eq_some_iff.1 walked
      rw [if_pos (keeps here fun _ => around.isDirectory isDirectory), entered]
      exact ih (around.enter? isDirectory entered) others
    next => cases walked

/-- A directory stays where it is found as long as the directories around it stay. -/
theorem directory?_of_keeps {home : List String} {path : String}
    (found : a.directory? home path = some location)
    (keeps : ∀ place, (∀ outer, outer <:+ place → a.isDirectory outer = true) → b.isDirectory place = true) :
    (∀ place, place <:+ location → a.isDirectory place = true) ∧ b.directory? home path = some location := by
  obtain ⟨located, isDirectory⟩ := Option.filter_eq_some_iff.1 found
  unfold Disk.locate? at located
  split at located
  next walkable =>
    obtain ⟨around, walked⟩ := around_nil.walk located keeps
    have all : ∀ place, place <:+ location → a.isDirectory place = true :=
      fun _ => around.isDirectory isDirectory
    refine ⟨all, Option.filter_eq_some_iff.2 ⟨?_, keeps location all⟩⟩
    rw [Disk.locate?, if_pos walkable, walked]
  next => cases located

/-- The directory that a path names stands in directories. -/
theorem isDirectory_of_suffix {home : List String} {path : String}
    (found : disk.directory? home path = some location) (below : place <:+ location) : disk.isDirectory place = true :=
  (directory?_of_keeps found fun place all => all place (List.suffix_refl place)).1 place below

/-! ## Created directories -/

theorem AgreeOff.put {serial : Nat} (agree : AgreeOff serial a b) (inside : place ≠ []) (item : Item) :
    AgreeOff serial (a.put place item) (b.put place item) := by
  intro location off
  rw [item?_put inside, item?_put inside, agree location off]

theorem ne_nil_of_item? (nothing : disk.item? location = none) : location ≠ [] := by
  rintro rfl
  cases nothing

/-- Disks that agree off a staged name still do after the same directories were created. -/
theorem AgreeOff.create {serial : Nat} (agree : AgreeOff serial a b) {here : Location} (plain : IsPlain here)
    (steps : List Step) : (a.create here steps).1 = (b.create here steps).1 ∧
      AgreeOff serial (a.create here steps).2 (b.create here steps).2 := by
  induction steps generalizing a b here with
  | nil => exact ⟨rfl, agree⟩
  | cons step rest ih =>
    unfold Disk.create
    cases entered : Disk.enter? here step with
    | none => exact ⟨rfl, agree⟩
    | some there =>
      have plainThere := plain.enter? entered
      simp only [agree there (plainThere serial)]
      cases stands : b.item? there with
      | none => exact ih (agree.put (ne_nil_of_item? stands) .directory) plainThere
      | some item =>
        cases item with
        | directory => exact ih agree plainThere
        | file | archive => exact ⟨rfl, agree⟩

theorem Grown.refl (disk : Disk) : disk.Grown disk := fun _ => .inl rfl

/-- Growth after a new directory is growth. -/
theorem Grown.of_put (nothing : a.item? place = none) (grown : (a.put place .directory).Grown b) :
    a.Grown b := by
  intro location
  have step := grown location
  rw [item?_put (ne_nil_of_item? nothing)] at step
  split at step
  next same =>
    subst same
    obtain here | ⟨other, -⟩ := step
    · exact .inr ⟨nothing, here⟩
    · cases other
  next => exact step

/-- The creation of directories is growth, step by step. -/
theorem grown_create (disk : Disk) (here : Location) (steps : List Step) :
    disk.Grown (disk.create here steps).2 := by
  induction steps generalizing disk here with
  | nil => exact .refl disk
  | cons step rest ih =>
    unfold Disk.create
    split
    · exact .refl disk
    · split
      · exact ih disk _
      · exact .refl disk
      next nothing => exact .of_put nothing (ih _ _)

theorem grown_createFirst (disk : Disk) (home : List String) (path : String) (count : Nat) :
    disk.Grown (disk.createFirst home path count).2 := by
  unfold Disk.createFirst
  split
  · exact grown_create disk [] _
  · exact .refl disk

/-- Created directories have plain locations. -/
theorem item?_create {here : Location} (plain : IsPlain here) (steps : List Step)
    (staged : ¬ IsPlain location) : (disk.create here steps).2.item? location = disk.item? location := by
  induction steps generalizing disk here with
  | nil => rfl
  | cons step rest ih =>
    unfold Disk.create
    cases entered : Disk.enter? here step with
    | none => rfl
    | some there =>
      have plainThere := plain.enter? entered
      have other : location ≠ there := by
        rintro rfl
        exact staged plainThere
      simp only
      split
      · exact ih plainThere
      · rfl
      next nothing => rw [ih plainThere, item?_put (ne_nil_of_item? nothing), if_neg other]

theorem item?_createFirst (home : List String) (path : String) (count : Nat) (staged : ¬ IsPlain location) :
    (disk.createFirst home path count).2.item? location = disk.item? location := by
  unfold Disk.createFirst
  split
  · exact item?_create isPlain_nil _ staged
  · rfl

theorem AgreeOff.createFirst {serial : Nat} (agree : AgreeOff serial a b) (home : List String) (path : String)
    (count : Nat) : AgreeOff serial (a.createFirst home path count).2 (b.createFirst home path count).2 := by
  unfold Disk.createFirst
  rw [agree.isDirectory (isPlain_locationOf home serial)]
  split
  · exact (agree.create isPlain_nil _).2
  · exact agree

theorem agreeOff_put (disk : Disk) (serial : Nat) (outer : Location) (item : Item) :
    AgreeOff serial (disk.put (.staged serial :: outer) item) disk := by
  intro location off
  rw [item?_put (by simp), if_neg]
  rintro rfl
  exact off (by simp)

/-- Something staged under a free name is not noticed when directories are created. -/
theorem createFirst_put {serial : Nat} (free : disk.Free serial) (outer : Location) (item : Item)
    (home : List String) (path : String) (count : Nat) :
    let place := Name.staged serial :: outer
    AgreeOff serial ((disk.put place item).createFirst home path count).2
        (disk.createFirst home path count).2 ∧
      (((disk.put place item).createFirst home path count).2.erase place).Same
        (disk.createFirst home path count).2 := by
  intro place
  have created := (agreeOff_put disk serial outer item).createFirst home path count
  refine ⟨created, fun location => ?_⟩
  rw [item?_erase (by simp [place])]
  by_cases off : Name.staged serial ∈ location
  · have staged : ¬ IsPlain location := fun plain => plain serial off
    rw [item?_createFirst home path count staged, item?_createFirst home path count staged,
      free location off]
    split
    · rfl
    next apart =>
      rw [item?_put (by simp [place]), if_neg, free location off]
      rintro rfl
      exact apart (List.suffix_refl _)
  · rw [if_neg, created location off]
    intro below
    exact off (below.subset (by simp [place]))

/-- Something under a free name can be taken away again without a trace. -/
theorem erase_put {serial : Nat} (free : disk.Free serial) (outer : Location) (item : Item) :
    (disk.put (.staged serial :: outer) item).erase (.staged serial :: outer) = disk := by
  have unnamed : ∀ e ∈ disk.items, ¬ .staged serial :: outer <:+ e.1 := by
    intro e mem below
    have named : Name.staged serial ∈ e.1 := below.subset (by simp)
    have nothing := free e.1 named
    rw [item?_of_ne_nil (List.ne_nil_of_mem named), Option.map_eq_none_iff, List.find?_eq_none] at nothing
    exact nothing e mem (beq_self_eq_true _)
  unfold erase put
  congr 1
  rw [List.filter_cons_of_neg (by simp), List.filter_filter, List.filter_eq_self]
  intro e mem
  have apart := unnamed e mem
  have other : e.1 ≠ .staged serial :: outer := by
    intro same
    exact apart (same ▸ List.suffix_refl _)
  simp [not_isSuffixOf apart, other]

theorem put_put (disk : Disk) (place : Location) (item other : Item) :
    (disk.put place item).put place other = disk.put place other := by
  simp [put, List.filter_filter]

end Disk

end ScratchPage
