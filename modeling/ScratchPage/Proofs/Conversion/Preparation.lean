import ScratchPage.Proofs.Conversion.Steps
import ScratchPage.Proofs.Disk.Frame

/-!
# Conversions that stop before they write

A conversion announces its stages. The lines it has shown tell how far it came: an error stops it while it
prepares exactly if it has not announced that it writes, and then the disk is the one it was started on.
-/

namespace ScratchPage
set_option autoImplicit false

namespace Conversion

variable {α β : Type} {setting : Setting} {disk : Disk} {allowed : ConversionError → Prop}

/-! ## Steps that show nothing -/

/-- The step shows nothing, and only an allowed error stops it. -/
structure Within (allowed : ConversionError → Prop) (step : ConversionT SessionM α) : Prop where
  shown : ∀ setting s, (step.run setting s).2.shown = s.shown
  stops : ∀ setting s error, (step.run setting s).1 = .error error → allowed error

theorem shown_attempt (act : Setting → Disk → Option α × Disk) (partly : Setting → Nat → Disk → Disk)
    (setting : Setting) (s : Session) : (Session.attempt act partly setting s).2.shown = s.shown := by
  unfold Session.attempt
  split
  · rfl
  · split <;> rfl

namespace Within

theorem pure (a : α) : Within allowed (Pure.pure a) := by
  refine ⟨fun _ _ => rfl, fun _ _ _ stopped => ?_⟩
  cases stopped

theorem throw {error : ConversionError} (ok : allowed error) :
    Within allowed (MonadExcept.throw error : ConversionT SessionM α) := by
  refine ⟨fun _ _ => rfl, fun _ _ _ stopped => ?_⟩
  cases stopped
  exact ok

/-- Steps in sequence stay within the errors that each of them stays within. -/
theorem bind {step : ConversionT SessionM β} {next : β → ConversionT SessionM α} (first : Within allowed step)
    (others : ∀ b, Within allowed (next b)) : Within allowed (step >>= next) := by
  constructor
  case shown =>
    intro setting s
    rw [ExceptT.run_bind, run_bind, ← first.shown setting s]
    cases (step.run setting s).1 with
    | ok b => exact (others b).shown setting _
    | error error => rfl
  case stops =>
    intro setting s error
    rw [ExceptT.run_bind, run_bind]
    cases result : (step.run setting s).1 with
    | ok b => exact (others b).stops setting _ error
    | error first' =>
      intro stopped
      cases stopped
      exact first.stops setting s _ result

theorem lift {operation : SessionM α} (shown : ∀ setting s, (operation setting s).2.shown = s.shown) :
    Within allowed (liftM operation) := by
  refine ⟨shown, fun _ _ _ stopped => ?_⟩
  cases stopped

theorem demand {error : String → ConversionError} {operation : SessionM (Attempt α)}
    (shown : ∀ setting s, (operation setting s).2.shown = s.shown) (ok : ∀ words, allowed (error words)) :
    Within allowed (Conversion.demand error operation) := by
  refine bind (lift shown) fun result => ?_
  cases result with
  | ok a => exact pure a
  | error words => exact throw (ok words)

theorem accept {ε : Type} {error : ε → ConversionError} (ok : ∀ e, allowed (error e)) (result : Except ε α) :
    Within allowed (Conversion.accept error result) := by
  cases result with
  | ok a => exact pure a
  | error e => exact throw (ok e)

theorem forM {body : β → ConversionT SessionM PUnit} (each : ∀ b, Within allowed (body b)) (list : List β) :
    Within allowed (list.forM body) := by
  induction list with
  | nil => exact pure _
  | cons b rest ih => exact bind (each b) fun _ => ih

theorem discarding {staged : Staged} {step : ConversionT SessionM α} (within : Within allowed step) :
    Within allowed (Conversion.discarding staged step) := ⟨within.shown, within.stops⟩

end Within

/-- The error stops a publication. -/
def StopsPublishing (error : ConversionError) : Prop := error.phase = .publishing

theorem within_fill (staged : Staged) (document : String) (assets : List Asset) :
    Within StopsPublishing (fill staged document assets : ConversionT SessionM Unit) := by
  unfold fill
  refine .bind (.demand (shown_attempt _ _) fun _ => rfl) fun _ => ?_
  refine .forM (fun asset => ?_) assets
  exact .demand (shown_attempt _ _) fun _ => rfl

/-- To settle the files stops only with the errors of a publication, on either way. -/
theorem within_settle (staged : Staged) (output : String) :
    Within StopsPublishing (settle staged output : ConversionT SessionM Unit) := by
  unfold settle
  refine .bind (.lift fun _ _ => rfl) fun there => ?_
  cases there with
  | false => exact .demand (shown_attempt _ _) fun _ => rfl
  | true =>
    refine .bind (.lift fun _ _ => rfl) fun isDirectory => ?_
    cases isDirectory with
    | false => exact .throw rfl
    | true =>
      refine .bind (.demand (shown_attempt _ _) fun _ => rfl) fun names => .forM (fun name => ?_) names
      exact .bind (.demand (shown_attempt _ _) fun _ => rfl) fun _ => .demand (shown_attempt _ _) fun _ => rfl

theorem within_publish (output document : String) (assets : List Asset) :
    Within StopsPublishing (publish output document assets : ConversionT SessionM Unit) := by
  unfold publish
  refine .bind (.demand (shown_attempt _ _) fun _ => rfl) fun _ => ?_
  refine .bind (.demand (shown_attempt _ _) fun _ => rfl) fun staged => .discarding ?_
  exact .bind (within_fill staged document assets) fun _ => within_settle staged output

/-! ## Steps and what they show -/

/-- Started on the disk, the step ends with a result and a disk, and shows lines, as stated. -/
structure Tells (setting : Setting) (disk : Disk) (step : ConversionT SessionM α)
    (post : Except ConversionError α → Disk → List String → Prop) : Prop where
  run : ∀ clock shown, ∃ lines, (step.run setting ⟨disk, clock, shown⟩).2.shown = shown ++ lines ∧
    post (step.run setting ⟨disk, clock, shown⟩).1 (step.run setting ⟨disk, clock, shown⟩).2.disk lines

namespace Tells

variable {post : Except ConversionError α → Disk → List String → Prop}

/-- What a step tells holds of its session. -/
theorem session {step : ConversionT SessionM α} (tells : Tells setting disk step post)
    {result : Except ConversionError α} {after : Disk} {shown : List String}
    (ran : Session.run setting disk step = (result, after, shown)) : post result after shown := by
  obtain ⟨lines, same, holds⟩ := tells.run 0 []
  unfold Session.run at ran
  generalize step.run setting ⟨disk, 0, []⟩ = done at same holds ran
  cases ran
  rw [List.nil_append] at same
  exact same ▸ holds

theorem returned {a : α} (holds : post (.ok a) disk []) : Tells setting disk (pure a) post :=
  ⟨fun _ _ => ⟨[], (List.append_nil _).symm, holds⟩⟩

/-- A step that shows nothing. -/
theorem quiet {step : ConversionT SessionM α} {holds : Except ConversionError α → Disk → Prop}
    (within : Within allowed step) (ends : Ends setting disk step holds)
    (imp : ∀ result after, holds result after → (∀ error, result = .error error → allowed error) →
      post result after []) : Tells setting disk step post := by
  refine ⟨fun clock shown => ⟨[], ?_, ?_⟩⟩
  · rw [List.append_nil]
    exact within.shown setting _
  · exact imp _ _ (ends.run clock shown) (within.stops setting _)

/-- An operation of the host shows nothing. -/
theorem demanded {error : String → ConversionError} {operation : SessionM (Attempt α)}
    (silent : ∀ setting s, (operation setting s).2.shown = s.shown)
    (ends : Ends setting disk (demand error operation) fun result after => post result after []) :
    Tells setting disk (demand error operation) post := by
  have within : Within (fun _ => True) (demand error operation) := .demand silent fun _ => trivial
  exact quiet within ends fun _ _ holds _ => holds

theorem announce {options : ConversionOptions} {stage : Stage}
    {post : Except ConversionError Unit → Disk → List String → Prop}
    (holds : post (.ok ()) disk [stage.line options.stageCount]) :
    Tells setting disk (Conversion.announce options stage) post :=
  ⟨fun _ _ => ⟨_, rfl, holds⟩⟩

/-- The lines of a step come before those of the steps after it. -/
theorem bind {step : ConversionT SessionM β} {next : β → ConversionT SessionM α}
    (first : Tells setting disk step fun result after lines =>
      match result with
      | .ok b => Tells setting after (next b) fun result after more => post result after (lines ++ more)
      | .error error => post (.error error) after lines) :
    Tells setting disk (step >>= next) post := by
  refine ⟨fun clock shown => ?_⟩
  obtain ⟨lines, same, holds⟩ := first.run clock shown
  rw [ExceptT.run_bind, run_bind]
  cases result : (step.run setting ⟨disk, clock, shown⟩).1 with
  | ok b =>
    rw [result] at holds
    obtain ⟨more, same', holds'⟩ := holds.run (step.run setting ⟨disk, clock, shown⟩).2.clock
      (step.run setting ⟨disk, clock, shown⟩).2.shown
    refine ⟨lines ++ more, ?_, holds'⟩
    rw [← List.append_assoc, ← same]
    exact same'
  | error error =>
    rw [result] at holds
    exact ⟨lines, same, holds⟩

theorem discarding {staged : Staged} {step : ConversionT SessionM α}
    (tells : Tells setting disk step fun result after lines => post result (after.erase staged.location) lines) :
    Tells setting disk (Conversion.discarding staged step) post := ⟨tells.run⟩

/-- A step that prepares shows nothing, and the disk stays as it is. -/
theorem preparing {step : ConversionT SessionM β} {next : β → ConversionT SessionM α}
    (silent : Within (fun _ => True) step)
    (ends : Ends setting disk step (ending (fun _ after => after = disk)
      fun error after => error.phase = .preparing ∧ after = disk))
    (stopped : ∀ error : ConversionError, error.phase = .preparing → post (.error error) disk [])
    (others : ∀ b, Tells setting disk (next b) post) : Tells setting disk (step >>= next) post := by
  refine bind (quiet silent ends fun result after holds _ => ?_)
  cases result with
  | ok b =>
    obtain rfl : after = disk := holds
    exact others b
  | error error =>
    obtain ⟨phase, rfl⟩ := holds
    exact stopped error phase

/-- A step that shows nothing, whatever it does to the disk. -/
theorem working {step : ConversionT SessionM β} {next : β → ConversionT SessionM α}
    (within : Within allowed step)
    (stopped : ∀ error after, allowed error → post (.error error) after [])
    (others : ∀ b after, Tells setting after (next b) post) : Tells setting disk (step >>= next) post := by
  have anything : Ends setting disk step fun _ _ => True := ⟨fun _ _ => trivial⟩
  refine bind (quiet within anything fun result after _ errors => ?_)
  cases result with
  | ok b => exact others b after
  | error error => exact stopped error after (errors error rfl)

end Tells

/-! ## Whole conversions -/

/-- The line that announces the writing of a page differs from all others. -/
theorem line_eq_writing_iff {options : ConversionOptions} {stage : Stage} :
    Stage.writing.line options.stageCount = stage.line options.stageCount ↔ stage = .writing := by
  unfold ConversionOptions.stageCount
  split <;> cases stage <;> decide +kernel

theorem within_inputLabel (path : String) : Within (fun _ => True) (inputLabel path) := by
  refine .bind (.lift fun _ _ => rfl) fun isFile => ?_
  cases isFile with
  | true => exact .demand (shown_attempt _ _) fun _ => trivial
  | false => exact .throw trivial

theorem within_templateText (path? : Option String) : Within (fun _ => True) (templateText path?) := by
  cases path? with
  | none => exact .pure _
  | some path => exact .demand (shown_attempt _ _) fun _ => trivial

theorem within_readArchive (path label : String) : Within (fun _ => True) (readArchive path label) := by
  refine .bind (.lift fun setting s => ?_) fun _ => .accept (fun _ => trivial) _
  have shown := shown_attempt
    (fun setting disk => (some (Session.entriesAt disk setting.home path), disk)) (fun _ _ disk => disk) setting s
  simp only [Host.readEntries, Session.inspect]
  split <;> simp_all

/-- An error tells by its phase whether the writing of the page was announced; if not, the disk is as it
was. -/
def Unwritten (disk : Disk) (options : ConversionOptions) (result : Except ConversionError α) (after : Disk)
    (lines : List String) : Prop :=
  ∀ error, result = .error error →
    (error.phase = .preparing ↔ Stage.writing.line options.stageCount ∉ lines) ∧
    (error.phase = .preparing → after = disk)

theorem unwritten_ok {options : ConversionOptions} {after : Disk} {lines : List String} (a : α) :
    Unwritten disk options (.ok a) after lines := by
  intro error stopped
  cases stopped

theorem unwritten_of_preparing {options : ConversionOptions} {error : ConversionError} {lines : List String}
    (phase : error.phase = .preparing) (early : Stage.writing.line options.stageCount ∉ lines) :
    Unwritten disk options (.error error : Except ConversionError α) disk lines := by
  intro other same
  cases same
  exact ⟨⟨fun _ => early, fun _ => phase⟩, fun _ => rfl⟩

theorem unwritten_of_written {options : ConversionOptions} {error : ConversionError} {after : Disk}
    {lines : List String} (late : error.phase ≠ .preparing)
    (told : Stage.writing.line options.stageCount ∈ lines) :
    Unwritten disk options (.error error : Except ConversionError α) after lines := by
  intro other same
  cases same
  exact ⟨⟨fun early => absurd early late, fun untold => absurd told untold⟩, fun early => absurd early late⟩

/-- The file with the code is staged and then written; if that fails, the disk is as it was. -/
theorem tells_publishWithCode {options : ConversionOptions} {path code document : String}
    {assets : List Asset} {post : Except ConversionError Unit → Disk → List String → Prop}
    (done : ∀ after lines, post (.ok ()) after lines)
    (refused : post (.error (.codeNotStaged path)) disk [])
    (stopped : ∀ error after lines, error.phase ≠ .preparing → Stage.writing.line options.stageCount ∈ lines →
      post (.error error) after lines) :
    Tells setting disk (publishWithCode options path code document assets) post := by
  unfold publishWithCode
  refine .bind (.demanded (shown_attempt _ _) (Ends.stage (fun directory _ => Tells.discarding ?_) refused))
  have erased : ∀ item, (disk.put (disk.freshLocation directory) item).erase (disk.freshLocation directory) = disk :=
    Disk.erase_put (Disk.free_freshSerial disk) directory
  refine .bind (.demanded (shown_attempt _ _) (Ends.write (Tells.bind (.announce ?_)) fun after left => ?_))
  · refine .working (within_publish _ _ _) (fun error after late => stopped _ _ _ ?_ (by simp)) fun _ after => ?_
    · rw [late]
      decide
    refine .bind (.announce (.demanded (shown_attempt _ _) (Ends.change (fun _ after _ => done _ _) ?_)))
    exact stopped _ _ _ (by rintro ⟨⟩) (by simp)
  · have same : after.erase (disk.freshLocation directory) = disk := by
      obtain rfl | ⟨part, rfl⟩ := left
      · exact erased _
      · rw [Disk.put_put, erased]
    rw [same]
    exact refused

/-- The run of a conversion, stage after stage: the line about writing is shown once all that can stop it in
preparation is done. -/
theorem tells_convert (setting : Setting) (disk : Disk) (options : ConversionOptions) :
    Tells setting disk (convert options) (Unwritten disk options) := by
  unfold convert
  refine .bind (.announce ?_)
  refine .preparing (within_inputLabel _) (Ends.inputLabel (fun _ => rfl) fun _ phase => ⟨phase, rfl⟩)
    (fun error phase => unwritten_of_preparing phase ?_) fun label => ?_
  · simp [line_eq_writing_iff]
  refine .preparing (within_templateText _) (Ends.templateText (fun _ _ => rfl) fun _ => ⟨rfl, rfl⟩)
    (fun error phase => unwritten_of_preparing phase ?_) fun template => ?_
  · simp [line_eq_writing_iff]
  refine .bind (.announce ?_)
  refine .preparing (within_readArchive _ _) (Ends.readArchive (fun _ _ => rfl) fun _ => ⟨rfl, rfl⟩)
    (fun error phase => unwritten_of_preparing phase ?_) fun archive => ?_
  · simp [line_eq_writing_iff]
  refine .bind (.announce ?_)
  refine .preparing (.accept (fun _ => trivial) _) (Ends.accept (fun _ _ => rfl) fun _ _ => ⟨rfl, rfl⟩)
    (fun error phase => unwritten_of_preparing phase ?_) fun project => ?_
  · simp [line_eq_writing_iff]
  refine .bind (.announce ?_)
  refine .preparing (.accept (fun _ => trivial) _) (Ends.accept (fun _ _ => rfl) fun _ _ => ⟨rfl, rfl⟩)
    (fun error phase => unwritten_of_preparing phase ?_) fun code => ?_
  · simp [line_eq_writing_iff]
  simp only
  split
  next path emit =>
    refine .bind (tells_publishWithCode (fun _ _ => ?_) (unwritten_of_preparing rfl ?_)
      fun _ _ _ late told => ?_)
    · exact .returned (unwritten_ok _)
    · simp [line_eq_writing_iff]
    · exact unwritten_of_written late (by simp [told])
  next emit =>
    refine .bind (.announce ?_)
    refine .working (within_publish _ _ _) (fun error after late => unwritten_of_written ?_ (by simp))
      fun _ after => .returned (unwritten_ok _)
    rw [late]
    decide

/-- A conversion that stops has announced the writing of its page, unless it stops while it prepares: without
its input, its template or an archive with a valid project, with a project that does not compile, or without
a place for the file with its code. The disk is then the one it was started on. -/
theorem convert_stopped_preparing {setting : Setting} {disk after : Disk} {options : ConversionOptions}
    {error : ConversionError} {shown : List String}
    (stopped : Session.run setting disk (convert options) = (.error error, after, shown)) :
    (error.phase = .preparing ↔ Stage.writing.line options.stageCount ∉ shown) ∧
    (error.phase = .preparing → after = disk) :=
  (tells_convert setting disk options).session stopped error rfl

/-- The phase in which a conversion stops. -/
def stoppedPhase? (setting : Setting) (disk : Disk) (options : ConversionOptions) : Option ConversionPhase :=
  match Session.run setting disk (convert options) with
  | (.error error, _, _) => some error.phase
  | (.ok _, _, _) => none

/-- The phase in which a conversion stops is evaluated. -/
theorem exists_of_stoppedPhase? {options : ConversionOptions} {phase : ConversionPhase}
    (stops : stoppedPhase? setting disk options = some phase) :
    ∃ error after shown, Session.run setting disk (convert options) = (.error error, after, shown) ∧
      error.phase = phase := by
  unfold stoppedPhase? at stops
  split at stops
  next error after shown stopped => exact ⟨error, after, shown, stopped, Option.some.inj stops⟩
  next => cases stops

/-- An archive next to the site of an earlier conversion. -/
def oldSiteDisk : Disk :=
  ⟨[([.plain "home"], .directory),
    ([.plain "game.sb3", .plain "home"], .archive [("project.json", "\x7b\"targets\":[]\x7d".toUTF8)]),
    ([.plain "site"], .directory), ([.plain pageName, .plain "site"], .file "old".toUTF8)]⟩

/-- A setting in which the fourth operation breaks off after nine parts: the archive was read, the file for
the code is staged, and nine bytes of the code are written. -/
def fullDiskSetting : Setting := { Setting.calm ["home"] with fault := fun n => if n = 3 then some 9 else none }

/-- The disk is full while the code is staged, and the old site is as it was. -/
theorem convert_stopped_preparing_fullDisk :
    ∃ error after shown,
      Session.run fullDiskSetting oldSiteDisk (convert ⟨"game.sb3", "/site", none, some "../site/game.js"⟩) =
          (.error error, after, shown) ∧
        error.phase = .preparing ∧ Stage.writing.line 6 ∉ shown ∧ after = oldSiteDisk := by
  have stops : stoppedPhase? fullDiskSetting oldSiteDisk
      ⟨"game.sb3", "/site", none, some "../site/game.js"⟩ = some .preparing := by decide +kernel
  obtain ⟨error, after, shown, stopped, phase⟩ := exists_of_stoppedPhase? stops
  obtain ⟨told, unchanged⟩ := convert_stopped_preparing stopped
  exact ⟨error, after, shown, stopped, phase, told.1 phase, unchanged phase⟩

end Conversion

end ScratchPage
