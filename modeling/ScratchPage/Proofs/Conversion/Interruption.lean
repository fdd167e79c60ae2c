import ScratchPage.Proofs.Conversion.Delivery

/-!
# Conversions that stop while they write

Operations may break off for reasons that the disk does not show, and the files of a page may be moved in any
order. Whatever stops a conversion after it has prepared its page, nothing staged is left. Unless an output
directory that was there already takes over files, and as long as the page is not in its place, there are at
most new directories on the way to it. If only the code cannot be put in its place, the page is delivered as
it would be without code: it is not taken back.
-/

namespace ScratchPage
set_option autoImplicit false

namespace Conversion

open Disk

/-- A conversion that stops while it writes has prepared a page. If it stops while it publishes the page,
there are new directories at most on the way to the output directory, and nothing else has changed; only an
output directory that was there already may have taken over some files of the page, each as a whole. If it
stops when it puts the code in its place, it has delivered the page, and nothing but the page. -/
theorem convert_stopped_writing {setting : Setting} {disk after : Disk} {options : ConversionOptions}
    {error : ConversionError} {shown : List String} (tree : disk.IsTree)
    (stopped : Session.run setting disk (convert options) = (.error error, after, shown))
    (late : error.phase ≠ .preparing) :
    ∃ template archive page,
      templateAt? disk setting.home options.template = some template ∧
        (Session.entriesAt disk setting.home options.input).bind Archive.ofEntries = .ok archive ∧
        convertText archive.project template = .ok page ∧
        ((error.phase = .publishing ∧ ∃ created,
            GrownAlong setting.home (Path.parent options.output) disk created ∧
              Withdrawn setting.home created options.output
                (pageFiles page.document (Selection.ofEntries archive.entries).assets) error after) ∨
          error.phase = .emitting ∧ ∃ directory,
            Delivered setting.home disk { options with emitCode := none } page
              (Selection.ofEntries archive.entries).assets directory after) := by
  obtain early | ⟨prepared, left⟩ := (ends_convert tree options).session stopped
  · exact absurd early late
  refine ⟨_, _, _, prepared.template_eq, prepared.archive_eq, prepared.convertText_eq, ?_⟩
  cases left with
  | preparing early => exact absurd early late
  | publishing phase withdrawn => exact .inl ⟨phase, _, grownAlong_createFirst _ _ _ _, withdrawn⟩
  | emitting phase written => exact .inr ⟨phase, _, prepared.delivered tree written nofun _⟩

/-- The conversion stops in the phase, and a file is new at the location. -/
def stopsWithNew (setting : Setting) (disk : Disk) (options : ConversionOptions) (phase : ConversionPhase)
    (location : Location) : Bool :=
  match Session.run setting disk (convert options) with
  | (.error error, after, _) =>
    error.phase = phase && (disk.item? location).isNone && (after.item? location).isSome
  | (.ok _, _, _) => false

/-- The stop of a conversion is evaluated together with a place that is new after it. -/
theorem exists_of_stopsWithNew {setting : Setting} {disk : Disk} {options : ConversionOptions}
    {phase : ConversionPhase} {location : Location}
    (stops : stopsWithNew setting disk options phase location = true) :
    ∃ error after shown, Session.run setting disk (convert options) = (.error error, after, shown) ∧
      error.phase = phase ∧ disk.item? location = none ∧ (after.item? location).isSome := by
  unfold stopsWithNew at stops
  split at stops
  next error after shown stopped =>
    simp only [Bool.and_eq_true, decide_eq_true_eq, Option.isNone_iff_eq_none] at stops
    exact ⟨error, after, shown, stopped, stops.1.1, stops.1.2, stops.2⟩
  next => cases stops

/-- A setting in which the second of two files cannot be moved into an output directory: the thirteen
operations before it read the input and the template, stage the code, create the way to the output directory,
stage the files, list them, and move the first one. -/
def brokenMoveSetting : Setting :=
  { Setting.calm ["home"] with fault := fun n => if n = 13 then some 0 else none }

/-- The second move into the old site breaks off, and the first file stays. -/
theorem convert_stopped_writing_brokenMove :
    (gameDisk oldSite).IsTree ∧ ∃ error after shown,
      let options := gameOptions "../site" (some "game.js")
      Session.run brokenMoveSetting (gameDisk oldSite) (convert options) = (.error error, after, shown) ∧
        error.phase ≠ .preparing ∧
        ∃ template archive page,
          templateAt? (gameDisk oldSite) brokenMoveSetting.home options.template = some template ∧
            (Session.entriesAt (gameDisk oldSite) brokenMoveSetting.home options.input).bind
              Archive.ofEntries = .ok archive ∧
            convertText archive.project template = .ok page ∧
            ((error.phase = .publishing ∧ ∃ created,
                GrownAlong brokenMoveSetting.home (Path.parent options.output) (gameDisk oldSite) created ∧
                  Withdrawn brokenMoveSetting.home created options.output
                    (pageFiles page.document (Selection.ofEntries archive.entries).assets) error after) ∨
              error.phase = .emitting ∧ ∃ directory,
                Delivered brokenMoveSetting.home (gameDisk oldSite) { options with emitCode := none } page
                  (Selection.ofEntries archive.entries).assets directory after) := by
  have tree : (gameDisk oldSite).IsTree := isTree_of_items (by decide +kernel)
  have stops : stopsWithNew brokenMoveSetting (gameDisk oldSite) (gameOptions "../site" (some "game.js"))
      .publishing [.plain "a.svg", .plain "site"] = true := by decide +kernel
  obtain ⟨error, after, shown, stopped, phase, -⟩ := exists_of_stopsWithNew stops
  have late : error.phase ≠ .preparing := by simp [phase]
  exact ⟨tree, error, after, shown, stopped, late, convert_stopped_writing tree stopped late⟩

/-- Where a directory stands in the way of the code, the conversion stops and has published a new page. -/
theorem blockedCode_leaves_page :
    ∃ error after shown,
      Session.run gameSetting (gameDisk [([.plain "game.js"], .directory)])
          (convert (gameOptions "site" (some "../game.js"))) = (.error error, after, shown) ∧
        error.phase = .emitting ∧
        (gameDisk [([.plain "game.js"], .directory)]).item? [.plain pageName, .plain "site", .plain "home"] =
          none ∧
        (after.item? [.plain pageName, .plain "site", .plain "home"]).isSome :=
  exists_of_stopsWithNew (by decide +kernel)

end Conversion

end ScratchPage
