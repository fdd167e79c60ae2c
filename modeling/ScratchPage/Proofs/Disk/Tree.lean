import Mathlib.Data.List.TakeWhile
import ScratchPage.Proofs.Disk.Frame

/-!
# Trees

On a disk that is a tree everything stands in a directory, so nothing stands below a place that holds no
directory, and something can be moved there as if the place were cleared first. Creating directories keeps
a tree. A path keeps leading where it led as long as its directories stay, and slashes at its end change
nothing once a directory stands there.
-/

namespace ScratchPage
set_option autoImplicit false

namespace Disk

variable {disk a b : Disk} {location place source target outer : Location} {item : Item}

theorem isDirectory_iff : disk.isDirectory location = true ↔ disk.item? location = some .directory := by
  unfold Disk.isDirectory
  split
  next here => simp [here]
  next other => simpa using other

/-- Everything on the disk stands in a directory. -/
def IsTree (disk : Disk) : Prop :=
  ∀ name outer, (disk.item? (name :: outer)).isSome → disk.isDirectory outer = true

theorem isTree_of_items (each : ∀ e ∈ disk.items, disk.isDirectory e.1.tail = true) : disk.IsTree := by
  intro name outer stands
  rw [item?_of_ne_nil (by simp), Option.isSome_map, List.find?_isSome] at stands
  obtain ⟨e, mem, here⟩ := stands
  have around := each e mem
  rw [beq_iff_eq.1 here] at around
  exact around

namespace IsTree

variable (tree : disk.IsTree)

include tree

/-- Nothing stands below a place that holds no directory. -/
theorem nothing_below (other : disk.isDirectory place = false) {inner : Location} (below : inner ≠ []) :
    disk.item? (inner ++ place) = none := by
  induction inner with
  | nil => exact absurd rfl below
  | cons name inner ih =>
    by_contra stands
    have around : disk.isDirectory (inner ++ place) = true :=
      tree name (inner ++ place) (Option.isSome_iff_ne_none.2 stands)
    by_cases here : inner = []
    · subst here
      exact Bool.false_ne_true (other.symm.trans around)
    · rw [isDirectory_iff, ih here] at around
      cases around

/-- A new item in a directory keeps a tree a tree. -/
theorem put {name : Name} (around : disk.isDirectory outer = true)
    (nothing : disk.item? (name :: outer) = none) (item : Item) : (disk.put (name :: outer) item).IsTree := by
  have keeps : ∀ place, disk.isDirectory place = true →
      (disk.put (name :: outer) item).isDirectory place = true := by
    intro place isDirectory
    rw [isDirectory_iff] at isDirectory ⊢
    rw [item?_put (by simp), if_neg, isDirectory]
    rintro rfl
    cases nothing.symm.trans isDirectory
  intro inner place stands
  rw [item?_put (by simp)] at stands
  split at stands
  next here =>
    cases here
    exact keeps outer around
  next => exact keeps place (tree inner place stands)

/-- A walk that starts in a directory creates its directories in directories. -/
theorem create {here : Location} (isDirectory : disk.isDirectory here = true) (steps : List Step) :
    (disk.create here steps).2.IsTree := by
  induction steps generalizing disk here with
  | nil => exact tree
  | cons step rest ih =>
    unfold Disk.create
    cases entered : enter? here step with
    | none => exact tree
    | some there =>
      simp only
      split
      next stands => exact ih tree (isDirectory_iff.2 stands)
      next => exact tree
      next nothing =>
        have grows : (disk.put there .directory).IsTree := by
          cases step with
          | stay =>
            cases entered
            cases nothing.symm.trans (isDirectory_iff.1 isDirectory)
          | up =>
            cases entered
            cases here with
            | nil => cases nothing
            | cons name outer =>
              have around := tree name outer (by rw [isDirectory_iff.1 isDirectory]; rfl)
              cases nothing.symm.trans (isDirectory_iff.1 around)
          | down name =>
            simp only [enter?, Option.ite_none_right_eq_some, Option.some.injEq] at entered
            obtain ⟨-, rfl⟩ := entered
            exact tree.put isDirectory nothing .directory
        refine ih grows (isDirectory_iff.2 ?_)
        rw [item?_put (ne_nil_of_item? nothing), if_pos rfl]

theorem createFirst (home : List String) (path : String) (count : Nat) :
    (disk.createFirst home path count).2.IsTree := by
  unfold Disk.createFirst
  split
  · exact tree.create rfl _
  · exact tree

/-- A file that is moved leaves its old place and takes its new one, and nothing else has changed. -/
theorem item?_replace_file {bytes : ByteArray} (held : disk.item? source = some (.file bytes))
    (apart : ¬ source <:+ target) (other : disk.isDirectory target = false) :
    ((disk.replace source target).erase source).item? location =
      if location = target then some (.file bytes) else (disk.erase source).item? location := by
  have inside : source ≠ [] := by
    rintro rfl
    cases held
  have isFile : disk.isDirectory source = false := by simp [Disk.isDirectory, held]
  have apart' : ¬ target <:+ source := by
    rintro ⟨inner, rfl⟩
    by_cases here : inner = []
    · exact apart (by simp [here])
    · cases (tree.nothing_below other here).symm.trans held
  rw [item?_erase inside, item?_erase inside]
  by_cases below : source <:+ location
  · have ne : location ≠ target := by
      rintro rfl
      exact apart below
    rw [if_pos below, if_neg ne, if_pos below]
  · rw [if_neg below, if_neg below]
    by_cases under : target <:+ location
    · obtain ⟨inner, rfl⟩ := under
      rw [item?_replace_append apart apart']
      by_cases here : inner = []
      · subst here
        rw [List.nil_append, held, List.nil_append, if_pos rfl]
      · rw [tree.nothing_below isFile here, tree.nothing_below other here, if_neg (by simpa using here)]
    · have ne : location ≠ target := by
        rintro rfl
        exact under (List.suffix_refl _)
      rw [item?_replace_of_not_suffix apart apart' below under, if_neg ne]

end IsTree

theorem IsTree.nothing_at (tree : disk.IsTree) (nothing : disk.item? place = none) (inner : Location) :
    disk.item? (inner ++ place) = none := by
  by_cases here : inner = []
  · rw [here, List.nil_append, nothing]
  · exact tree.nothing_below (by simp [Disk.isDirectory, nothing]) here

/-- Something is moved to a place where nothing stands as if the place were cleared first. -/
theorem move_eq_replace (nothing : ∀ inner, disk.item? (inner ++ target) = none) :
    disk.move source target = disk.replace source target := by
  have inside : target ≠ [] := ne_nil_of_item? (nothing [])
  have cleared : disk.erase target = disk := by
    unfold erase
    congr 1
    rw [List.filter_eq_self]
    rintro ⟨location, item⟩ mem
    refine not_isSuffixOf ?_
    rintro ⟨inner, rfl⟩
    have missing := nothing inner
    rw [item?_of_ne_nil (by simp [inside]), Option.map_eq_none_iff, List.find?_eq_none] at missing
    exact missing _ mem (beq_self_eq_true _)
  rw [replace, cleared]

end Disk

/-! ## Paths -/

namespace Path

theorem pieces_ne_nil (cs : List Char) : pieces cs ≠ [] := by
  cases cs with
  | nil => simp [pieces]
  | cons c cs =>
    unfold pieces
    split
    · simp
    · split <;> simp

/-- The pieces before a slash and those after it are the pieces of the whole. -/
theorem pieces_slash (cs ds : List Char) : pieces (cs ++ '/' :: ds) = pieces cs ++ pieces ds := by
  induction cs with
  | nil => rfl
  | cons c cs ih =>
    rw [List.cons_append, pieces, pieces, ih]
    split
    · rfl
    · cases found : pieces cs with
      | nil => exact absurd found (pieces_ne_nil cs)
      | cons piece more => rfl

theorem pieces_append_slash (cs : List Char) : pieces (cs ++ ['/']) = pieces cs ++ [[]] := pieces_slash cs []

/-- A text without a slash is one piece. -/
theorem pieces_of_no_slash {cs : List Char} (none : '/' ∉ cs) : pieces cs = [cs] := by
  induction cs with
  | nil => rfl
  | cons c cs ih =>
    rw [List.mem_cons, not_or] at none
    rw [pieces, if_neg (Ne.symm none.1), ih none.2]

theorem pieces_append_slashes (cs : List Char) (n : Nat) :
    pieces (cs ++ List.replicate n '/') = pieces cs ++ List.replicate n [] := by
  induction n with
  | zero => simp
  | succ n ih =>
    rw [List.replicate_succ', List.replicate_succ', ← List.append_assoc, pieces_append_slash, ih,
      List.append_assoc]

end Path

namespace Disk

variable {disk a b : Disk} {location : Location} {item : Item}

/-- Only slashes are taken from the end. -/
theorem toList_withoutSlashes (path : String) :
    ∃ n, path.toList = (withoutSlashes path).toList ++ List.replicate n '/' := by
  refine ⟨(path.toList.reverse.takeWhile (· == '/')).length, ?_⟩
  have slashes : path.toList.reverse.takeWhile (· == '/') =
      List.replicate (path.toList.reverse.takeWhile (· == '/')).length '/' := by
    rw [List.eq_replicate_iff]
    exact ⟨rfl, fun c mem => by simpa using List.mem_takeWhile_imp mem⟩
  rw [← List.reverse_replicate, ← slashes, withoutSlashes, String.toList_ofList, ← List.reverse_append,
    List.takeWhile_append_dropWhile, List.reverse_reverse]

/-- The slashes at the end of a path are steps that stay. -/
theorem steps_of_slashes {path bare : String} {n : Nat}
    (slashes : path.toList = bare.toList ++ List.replicate n '/') :
    steps path = steps bare ++ List.replicate n .stay := by
  unfold steps
  rw [slashes, Path.pieces_append_slashes, List.map_append, List.map_replicate]
  rfl

/-- Slashes at the end do not keep a path from being walked. -/
theorem isWalkable_of_slashes {path bare : String} {n : Nat}
    (slashes : path.toList = bare.toList ++ List.replicate n '/') (walkable : isWalkable bare = true) :
    isWalkable path = true := by
  simp only [isWalkable, Bool.and_eq_true, Bool.not_eq_true', String.isEmpty_eq_false_iff,
    List.contains_eq_mem, decide_eq_false_iff_not, ne_eq, ← String.toList_eq_nil_iff] at walkable ⊢
  obtain ⟨some, text⟩ := walkable
  rw [slashes]
  refine ⟨by simp [some], ?_⟩
  rw [List.mem_append, List.mem_replicate]
  rintro (inside | ⟨-, ⟨⟩⟩)
  exact text inside

/-- Slashes at the end add steps that stay in place. -/
theorem route_of_slashes {path bare : String} {n : Nat}
    (slashes : path.toList = bare.toList ++ List.replicate n '/') (walkable : isWalkable bare = true)
    (home : List String) : route home path = route home bare ++ List.replicate n .stay := by
  have some : bare.toList ≠ [] := by
    intro empty
    rw [isWalkable, String.toList_eq_nil_iff.1 empty] at walkable
    cases walkable
  have start : Path.isAbsolute path = Path.isAbsolute bare := by
    rw [Path.isAbsolute, slashes, List.head?_append_of_ne_nil _ some, Path.isAbsolute]
  unfold route
  rw [start, steps_of_slashes slashes]
  split
  · rfl
  · exact (List.append_assoc _ _ _).symm

/-- A walk can be made in two parts. -/
theorem walk_append (here : Location) (steps more : List Step) :
    disk.walk here (steps ++ more) = (disk.walk here steps).bind fun there => disk.walk there more := by
  induction steps generalizing here with
  | nil => rfl
  | cons step rest ih =>
    rw [List.cons_append, walk, walk]
    split
    · cases enter? here step with
      | none => rfl
      | some there => exact ih there
    · rfl

theorem walk_stay {here : Location} (isDirectory : disk.isDirectory here = true) (n : Nat) :
    disk.walk here (List.replicate n .stay) = some here := by
  induction n with
  | zero => rfl
  | succ n ih =>
    rw [List.replicate_succ, walk, if_pos isDirectory]
    exact ih

/-- A walk along the path comes to the location. -/
def Passes (disk : Disk) (home : List String) (path : String) (location : Location) : Prop :=
  ∃ front, front <+: route home path ∧ disk.walk [] front = some location

theorem Grown.isDirectory (grown : a.Grown b) (isDirectory : a.isDirectory location = true) :
    b.isDirectory location = true := by
  rw [isDirectory_iff] at isDirectory ⊢
  obtain same | ⟨nothing, -⟩ := grown location
  · exact same.trans isDirectory
  · cases nothing.symm.trans isDirectory

/-- What the rest of a walk comes to, the whole walk comes to. -/
theorem walk_extend {here there : Location} (isDirectory : disk.isDirectory here = true) {step : Step}
    (entered : enter? here step = some there) {steps : List Step}
    (rest : ∃ front, front <+: steps ∧ disk.walk there front = some location) :
    ∃ front, front <+: step :: steps ∧ disk.walk here front = some location := by
  obtain ⟨front, inside, walked⟩ := rest
  refine ⟨step :: front, List.cons_prefix_cons.2 ⟨rfl, inside⟩, ?_⟩
  rw [walk, if_pos isDirectory, entered, Option.bind_some, walked]

/-- A walk that creates directories comes to each of them. -/
theorem walk_of_create {here : Location} (isDirectory : disk.isDirectory here = true) {steps : List Step}
    (nothing : disk.item? location = none) (new : (disk.create here steps).2.item? location = some item) :
    ∃ front, front <+: steps ∧ (disk.create here steps).2.walk here front = some location := by
  induction steps generalizing disk here with
  | nil => cases nothing.symm.trans new
  | cons step rest ih =>
    have start := (grown_create disk here (step :: rest)).isDirectory isDirectory
    unfold Disk.create at new start ⊢
    cases entered : enter? here step with
    | none =>
      rw [entered] at new
      cases nothing.symm.trans new
    | some there =>
      cases stands : disk.item? there with
      | none =>
        simp only [entered, stands] at new start ⊢
        have inside := ne_nil_of_item? stands
        refine walk_extend start entered ?_
        by_cases same : location = there
        · exact ⟨[], List.nil_prefix, congrArg some same.symm⟩
        · refine ih (isDirectory_iff.2 ?_) ?_ new
          · rw [item?_put inside, if_pos rfl]
          · rw [item?_put inside, if_neg same, nothing]
      | some stood =>
        cases stood with
        | directory =>
          simp only [entered, stands] at new start ⊢
          exact walk_extend start entered (ih (isDirectory_iff.2 stands) nothing new)
        | file | archive =>
          simp only [entered, stands] at new
          cases nothing.symm.trans new

/-- What is new after the creation of directories is on the way of the path. -/
theorem passes_of_createFirst {home : List String} {path : String} {count : Nat}
    (nothing : disk.item? location = none)
    (new : (disk.createFirst home path count).2.item? location = some item) :
    (disk.createFirst home path count).2.Passes home path location := by
  unfold Disk.createFirst at new ⊢
  split at new
  next possible =>
    rw [if_pos possible]
    obtain ⟨front, inside, walked⟩ := walk_of_create rfl nothing new
    exact ⟨front, inside.trans (List.take_prefix _ _), walked⟩
  next => cases nothing.symm.trans new

/-- The disk grew by directories at places that a walk along the path comes to. -/
def GrownAlong (home : List String) (path : String) (a b : Disk) : Prop :=
  ∀ location, b.item? location = a.item? location ∨
    a.item? location = none ∧ b.item? location = some .directory ∧ b.Passes home path location

theorem grownAlong_createFirst (disk : Disk) (home : List String) (path : String) (count : Nat) :
    GrownAlong home path disk (disk.createFirst home path count).2 := by
  intro location
  obtain same | ⟨nothing, new⟩ := grown_createFirst disk home path count location
  · exact .inl same
  · exact .inr ⟨nothing, new, passes_of_createFirst nothing new⟩

theorem Passes.of_keeps {home : List String} {path : String} (passes : a.Passes home path location)
    (keeps : ∀ place, a.isDirectory place = true → b.isDirectory place = true) :
    b.Passes home path location := by
  obtain ⟨front, inside, walked⟩ := passes
  refine ⟨front, inside, (around_nil.walk walked fun place all => ?_).2⟩
  exact keeps place (all place (List.suffix_refl place))

/-- A place stays where it is located as long as the directories around it stay. -/
theorem locate?_of_keeps {home : List String} {path : String} (located : a.locate? home path = some location)
    (keeps : ∀ place, (∀ outer, outer <:+ place → a.isDirectory outer = true) → b.isDirectory place = true) :
    b.locate? home path = some location := by
  unfold Disk.locate? at located ⊢
  split at located
  next walkable =>
    rw [if_pos walkable]
    exact (around_nil.walk located keeps).2
  next => cases located

/-- What a path names stands in directories. -/
theorem around_locate? {home : List String} {path : String} (located : disk.locate? home path = some location) :
    disk.Around location := by
  unfold Disk.locate? at located
  split at located
  · exact (around_nil.walk located fun place all => all place (List.suffix_refl place)).1
  · cases located

theorem place?_congr {serial : Nat} (agree : AgreeOff serial a b) (home : List String) (path : String) :
    a.place? home path = b.place? home path := by
  unfold Disk.place?
  rw [locate?_congr agree]

theorem locate?_of_place? {home : List String} {path : String} (placed : disk.place? home path = some location) :
    disk.locate? home path = some location := by
  unfold Disk.place? at placed
  split at placed
  · exact placed
  · cases placed

/-- A directory moved to a path, with or without slashes at its end, is found there. -/
theorem directory?_of_place? {home : List String} {path : String}
    (placed : a.place? home (withoutSlashes path) = some location)
    (keeps : ∀ place, (∀ outer, outer <:+ place → a.isDirectory outer = true) → b.isDirectory place = true)
    (there : b.isDirectory location = true) : b.directory? home path = some location := by
  have located := locate?_of_keeps (locate?_of_place? placed) keeps
  obtain ⟨n, slashes⟩ := toList_withoutSlashes path
  refine Option.filter_eq_some_iff.2 ⟨?_, there⟩
  unfold Disk.locate? at located ⊢
  split at located
  next walkable =>
    rw [if_pos (isWalkable_of_slashes slashes walkable), route_of_slashes slashes walkable, walk_append,
      located]
    exact walk_stay there n
  next => cases located

end Disk

end ScratchPage
