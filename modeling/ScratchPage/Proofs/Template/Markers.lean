import Mathlib.Data.List.Infix
import Mathlib.Data.Nat.Find
import ScratchPage.Template

/-!
# Templates cut at their markers

A template is gone through once. Up to the first marker it is kept, the marker gives way to the code, and
the template behind the marker is filled in the same way, whatever the code looks like and whatever it
makes together with the text next to it (`render_cuts`). So the markers cut a template into pieces that
do not depend on the code, and a page is the code between these pieces.
-/

namespace ScratchPage.Template
set_option autoImplicit false

/-- A marker begins behind the first `n` characters of the template. -/
def MarkerAt (template : String) (n : Nat) : Prop :=
  ∃ ahead behind : String, template = ahead ++ "##code##" ++ behind ∧ ahead.length = n

/-- The template is cut at its first marker: no marker begins further to the left, not even one that
overlaps this one. -/
structure CutsFirst (template before after : String) : Prop where
  whole : template = before ++ "##code##" ++ after
  first : ∀ n, MarkerAt template n → before.length ≤ n

theorem length_marker : marker.length = 8 := rfl

/-! ## One pass -/

section

variable (code : List Char)

/-- The rest of a marker that has been replaced is dropped. -/
theorem fill_skip (skip : Nat) (cs : List Char) : fill code skip cs = fill code 0 (cs.drop skip) := by
  induction skip generalizing cs with
  | zero => rw [List.drop_zero]
  | succ skip ih =>
    cases cs with
    | nil => rfl
    | cons c rest => rw [fill, ih, List.drop_succ_cons]

theorem fill_marker (rest : List Char) : fill code 0 (marker ++ rest) = code ++ fill code 0 rest := by
  have starts : marker.isPrefixOf (marker ++ rest) = true :=
    List.isPrefixOf_iff_prefix.2 (List.prefix_append marker rest)
  change (if marker.isPrefixOf (marker ++ rest) then code ++ fill code 7 _ else _) = _
  rw [if_pos starts, fill_skip]
  rfl

/-- Text is kept as long as no marker begins in it. -/
theorem fill_append {kept : List Char} (rest : List Char)
    (none : ∀ i < kept.length, ¬ marker <+: (kept ++ rest).drop i) :
    fill code 0 (kept ++ rest) = kept ++ fill code 0 rest := by
  induction kept with
  | nil => rfl
  | cons c kept ih =>
    have here : ¬ marker.isPrefixOf (c :: (kept ++ rest)) = true := by
      rw [List.isPrefixOf_iff_prefix]
      exact none 0 (Nat.succ_pos _)
    have later := ih fun i inside => none (i + 1) (Nat.succ_lt_succ inside)
    rw [List.cons_append, fill, if_neg here, later, List.cons_append]

theorem fill_of_no_marker {cs : List Char} (none : ¬ marker <:+: cs) : fill code 0 cs = cs := by
  have kept : fill code 0 (cs ++ []) = cs ++ fill code 0 [] := by
    apply fill_append
    intro i _ starts
    rw [List.append_nil] at starts
    exact none (starts.isInfix.trans (List.drop_suffix i cs).isInfix)
  simpa [fill] using kept

end

/-- A marker that is replaced by a marker stays as it was. -/
theorem fill_with_marker (cs : List Char) : fill marker 0 cs = cs := by
  have skipping : ∀ skip, fill marker skip cs = cs.drop skip := by
    intro skip
    fun_induction fill marker skip cs with
    | case1 skip => rw [List.drop_nil]
    | case2 skip c rest ih => rw [ih, List.drop_succ_cons]
    | case3 c rest starts ih =>
      obtain ⟨behind, split⟩ := List.isPrefixOf_iff_prefix.1 starts
      have rest_eq : rest.drop (marker.length - 1) = behind := by
        rw [← List.drop_succ_cons (a := c), ← split]
        rfl
      rw [ih, rest_eq, split, List.drop_zero]
    | case4 c rest _ ih => rw [ih, List.drop_zero, List.drop_zero]
  exact skipping 0

/-! ## The first marker -/

section

variable {template before after : String}

theorem toList_cut : (before ++ "##code##" ++ after).toList = before.toList ++ (marker ++ after.toList) := by
  rw [String.toList_append, String.toList_append, List.append_assoc]
  rfl

/-- In front of the first marker no marker begins. -/
theorem CutsFirst.none_before (cut : CutsFirst template before after) {i : Nat} (inside : i < before.toList.length) :
    ¬ marker <+: (before.toList ++ (marker ++ after.toList)).drop i := by
  rintro ⟨behind, starts⟩
  have earlier : template = String.ofList (template.toList.take i) ++ "##code##" ++ String.ofList behind := by
    rw [← String.toList_inj, toList_cut, String.toList_ofList, String.toList_ofList, starts, ← toList_cut,
      ← cut.whole, List.take_append_drop]
  have le := cut.first _ ⟨_, _, earlier, rfl⟩
  rw [← String.length_toList, ← String.length_toList, String.toList_ofList, List.length_take] at le
  omega

theorem CutsFirst.render_eq (cut : CutsFirst template before after) (code : String) :
    render template code = before ++ code ++ render after code := by
  rw [← String.toList_inj, render, String.toList_ofList, cut.whole, toList_cut,
    fill_append _ _ fun i inside => cut.none_before inside, fill_marker]
  simp [render]

/-- The text in front of the first marker holds none. -/
theorem CutsFirst.no_marker (cut : CutsFirst template before after) : ¬ marker <:+: before.toList := by
  rintro ⟨ahead, behind, split⟩
  have inside : ahead.length < before.toList.length := by
    rw [← split, List.length_append, List.length_append, length_marker]
    omega
  apply cut.none_before inside
  rw [← split, List.append_assoc, List.append_assoc, List.drop_left]
  exact List.prefix_append marker _

theorem CutsFirst.length_lt (cut : CutsFirst template before after) : after.length < template.length := by
  rw [cut.whole, String.length_append, String.length_append]
  have some : "##code##".length = 8 := rfl
  omega

/-- A template with a marker has a first one. -/
theorem exists_cutsFirst (marked : marker <:+: template.toList) :
    ∃ before after, CutsFirst template before after := by
  have place : ∃ n, MarkerAt template n := by
    obtain ⟨ahead, behind, split⟩ := marked
    refine ⟨_, String.ofList ahead, String.ofList behind, ?_, rfl⟩
    rw [← String.toList_inj, toList_cut, String.toList_ofList, String.toList_ofList, ← split, List.append_assoc]
  classical
  obtain ⟨before, after, whole, least⟩ := Nat.find_spec place
  refine ⟨before, after, whole, fun n here => ?_⟩
  rw [least]
  exact Nat.find_min' place here

end

/-! ## Pieces -/

theorem render_of_no_marker {template : String} (none : ¬ marker <:+: template.toList) (code : String) :
    render template code = template := by
  rw [render, fill_of_no_marker _ none, String.ofList_toList]

/-- The pieces of a template, between which the code of every page stands. -/
theorem exists_pieces (template : String) :
    ∃ pieces : List String, pieces ≠ [] ∧ (∀ piece ∈ pieces, ¬ marker <:+: piece.toList) ∧
      ∀ code, render template code = code.intercalate pieces := by
  by_cases marked : marker <:+: template.toList
  · obtain ⟨before, after, cut⟩ := exists_cutsFirst marked
    have shorter := cut.length_lt
    obtain ⟨pieces, some, unmarked, joined⟩ := exists_pieces after
    refine ⟨before :: pieces, List.cons_ne_nil _ _, List.forall_mem_cons.2 ⟨cut.no_marker, unmarked⟩, ?_⟩
    intro code
    rw [cut.render_eq, joined, String.intercalate_cons_of_ne_nil some]
  · refine ⟨[template], List.cons_ne_nil _ _, by simpa using marked, fun code => ?_⟩
    rw [render_of_no_marker marked, String.intercalate_singleton]
termination_by template.length

/-- A template without a marker is the page. A template with a marker has a first one, and its page is the
text in front of that marker, the code as it is, and the page of the text behind the marker. So for all
code alike the page is the code between pieces of the template that hold no marker, and code that is the
marker gives the template back. -/
theorem render_cuts (template code : String) :
    (¬ marker <:+: template.toList → render template code = template) ∧
    (marker <:+: template.toList → ∃ before after, CutsFirst template before after) ∧
    (∀ before after, CutsFirst template before after →
      render template code = before ++ code ++ render after code) ∧
    (∃ pieces : List String, (∀ piece ∈ pieces, ¬ marker <:+: piece.toList) ∧
      ∀ other, render template other = other.intercalate pieces) ∧
    render template "##code##" = template := by
  refine ⟨fun none => render_of_no_marker none code, exists_cutsFirst, fun _ _ cut => cut.render_eq code, ?_, ?_⟩
  · obtain ⟨pieces, -, unmarked, joined⟩ := exists_pieces template
    exact ⟨pieces, unmarked, joined⟩
  · rw [render, show "##code##".toList = marker from rfl, fill_with_marker, String.ofList_toList]

/-- The first marker overlaps another one, and the code makes a marker with the text on both of its sides. -/
theorem render_cuts_overlapping :
    CutsFirst "###code##code##" "#" "code##" ∧
      render "###code##code##" "#" = "#" ++ "#" ++ render "code##" "#" ∧
      render "code##" "#" = "code##" := by
  have cut : CutsFirst "###code##code##" "#" "code##" := by
    refine ⟨rfl, ?_⟩
    rintro n ⟨ahead, behind, split, rfl⟩
    apply Nat.succ_le_of_lt
    apply Nat.pos_of_ne_zero
    intro empty
    have chars := congrArg String.toList split
    rw [toList_cut, List.eq_nil_of_length_eq_zero (String.length_toList.trans empty)] at chars
    cases chars
  exact ⟨cut, (render_cuts "###code##code##" "#").2.2.1 _ _ cut,
    (render_cuts "code##" "#").1 (by decide)⟩

end ScratchPage.Template
