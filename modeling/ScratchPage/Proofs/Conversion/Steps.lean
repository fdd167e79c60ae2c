import ScratchPage.Conversion.Convert
import ScratchPage.Disk.Host

/-!
# Steps of a conversion on a disk

`Ends` says of a step what holds of its result and of the disk afterwards, in a setting where operations may
break off. There is one rule for each way to build a step and for each kind of operation, and one for the
whole conversion: a conversion first prepares a page from what stands on the disk and then writes it, and as
long as it prepares, the disk stays as it is.
-/

namespace ScratchPage
set_option autoImplicit false

/-- The part of a conversion that an error stops. -/
inductive ConversionPhase where
  | preparing
  | publishing
  | emitting
deriving DecidableEq, Repr

namespace ConversionError

/-- The part of a conversion that an error stops. -/
def phase : ConversionError → ConversionPhase
  | .inputNotFound _ | .inputUnresolved _ | .templateUnreadable _ | .badArchive _ _ | .invalidProject _ _
  | .notCompiled _ _ | .codeNotStaged _ => .preparing
  | .parentNotCreated _ | .nothingStaged _ | .pageNotWritten _ | .assetNotWritten _ | .outputNotDirectory _
  | .filesUnlisted _ | .fileNotMoved _ | .outputNotMoved _ => .publishing
  | .codeNotWritten _ => .emitting

end ConversionError

namespace Conversion

variable {α β : Type} {setting : Setting} {disk : Disk} {post : Except ConversionError α → Disk → Prop}

/-- Started on the disk, the step ends with a result and a disk as stated, however many operations there
were and whatever was shown before. -/
structure Ends (setting : Setting) (disk : Disk) (step : ConversionT SessionM α)
    (post : Except ConversionError α → Disk → Prop) : Prop where
  run : ∀ clock shown, post (step.run setting ⟨disk, clock, shown⟩).1
    (step.run setting ⟨disk, clock, shown⟩).2.disk

/-- What holds after a success, and what after an error. -/
def ending (ok : α → Disk → Prop) (failed : ConversionError → Disk → Prop) :
    Except ConversionError α → Disk → Prop
  | .ok a, after => ok a after
  | .error error, after => failed error after

theorem run_bind (first : SessionM α) (next : α → SessionM β) (s : Session) :
    (first >>= next) setting s = next (first setting s).1 setting (first setting s).2 := rfl

namespace Ends

/-- What a step ends with on a disk where nothing was shown yet. -/
theorem session {step : ConversionT SessionM α} (ends : Ends setting disk step post)
    {result : Except ConversionError α} {after : Disk} {shown : List String}
    (ran : Session.run setting disk step = (result, after, shown)) : post result after := by
  have holds := ends.run 0 []
  unfold Session.run at ran
  generalize step.run setting ⟨disk, 0, []⟩ = done at holds ran
  cases ran
  exact holds

/-- A step ends in what follows from how it ends. -/
theorem imp {ok : α → Disk → Prop} {failed : ConversionError → Disk → Prop} {step : ConversionT SessionM α}
    (ends : Ends setting disk step (ending ok failed)) (done : ∀ a after, ok a after → post (.ok a) after)
    (stopped : ∀ error after, failed error after → post (.error error) after) :
    Ends setting disk step post := by
  refine ⟨fun clock shown => ?_⟩
  have holds := ends.run clock shown
  cases result : (step.run setting ⟨disk, clock, shown⟩).1 with
  | ok a =>
    rw [result] at holds
    exact done _ _ holds
  | error error =>
    rw [result] at holds
    exact stopped _ _ holds

theorem pure {a : α} (holds : post (.ok a) disk) : Ends setting disk (Pure.pure a) post :=
  ⟨fun _ _ => holds⟩

theorem throw {error : ConversionError} (holds : post (.error error) disk) :
    Ends setting disk (MonadExcept.throw error) post := ⟨fun _ _ => holds⟩

/-- A step after another one: it starts where the first one ended, unless an error stopped that. -/
theorem bind {step : ConversionT SessionM β} {next : β → ConversionT SessionM α}
    (first : Ends setting disk step
      (ending (fun b after => Ends setting after (next b) post) fun error => post (.error error))) :
    Ends setting disk (step >>= next) post := by
  refine ⟨fun clock shown => ?_⟩
  have holds := first.run clock shown
  rw [ExceptT.run_bind, run_bind]
  cases result : (step.run setting ⟨disk, clock, shown⟩).1 with
  | ok b =>
    rw [result] at holds
    exact holds.run _ _
  | error error =>
    rw [result] at holds
    exact holds

/-- A value returned after a step. -/
theorem returning {step : ConversionT SessionM β} {a : α}
    (ends : Ends setting disk step (ending (fun _ => post (.ok a)) fun error => post (.error error))) :
    Ends setting disk (step >>= fun _ => Pure.pure a) post :=
  bind (ends.imp (fun _ _ holds => pure holds) fun _ _ holds => holds)

/-- An operation of the host that cannot stop a conversion. -/
theorem lift {operation : SessionM α}
    (holds : ∀ clock shown, post (.ok (operation setting ⟨disk, clock, shown⟩).1)
      (operation setting ⟨disk, clock, shown⟩).2.disk) :
    Ends setting disk (liftM operation) post := ⟨holds⟩

/-- An operation that the host may refuse, or that breaks off after some of its parts. -/
theorem attempt {error : String → ConversionError} {act : Setting → Disk → Option α × Disk}
    {partly : Setting → Nat → Disk → Disk}
    (done : ∀ a after, act setting disk = (some a, after) → post (.ok a) after)
    (refused : ∀ after, act setting disk = (none, after) → post (.error (error Session.refused)) after)
    (broken : ∀ parts, post (.error (error Session.refused)) (partly setting parts disk)) :
    Ends setting disk (demand error (Session.attempt act partly)) post := by
  refine bind (lift fun clock shown => ?_)
  unfold Session.attempt
  cases setting.fault clock with
  | some parts => exact throw (broken parts)
  | none =>
    simp only
    rcases acted : act setting disk with ⟨result, after⟩
    cases result with
    | some a => exact pure (done a after acted)
    | none => exact throw (refused after acted)

/-- A question to the host changes nothing, and may go without an answer. -/
theorem inspect {error : String → ConversionError} {question : Setting → Disk → Option α}
    (found : ∀ a, question setting disk = some a → post (.ok a) disk)
    (refused : post (.error (error Session.refused)) disk) :
    Ends setting disk (demand error (Session.inspect question)) post := by
  refine attempt (fun a after acted => ?_) (fun after acted => ?_) fun _ => refused
  · obtain ⟨answer, rfl⟩ := Prod.mk.inj acted
    exact found a answer
  · obtain ⟨-, rfl⟩ := Prod.mk.inj acted
    exact refused

/-- A change by the host is made whole, or refused and not made. -/
theorem change {error : String → ConversionError} {act : Setting → Disk → Option (α × Disk)}
    (done : ∀ a after, act setting disk = some (a, after) → post (.ok a) after)
    (refused : post (.error (error Session.refused)) disk) :
    Ends setting disk (demand error (Session.change act)) post := by
  refine attempt (fun a after acted => ?_) (fun after acted => ?_) fun _ => refused
  · split at acted
    next result =>
      cases acted
      exact done a after result
    next => cases acted
  · split at acted
    next => cases acted
    next =>
      cases acted
      exact refused

/-- A file is written as a whole, or an error leaves nothing or a part of it. -/
theorem write {error : String → ConversionError} {location : Location} {possible : Bool} {bytes : ByteArray}
    {post : Except ConversionError Unit → Disk → Prop}
    (done : post (.ok ()) (disk.put location (.file bytes)))
    (failed : ∀ after, after = disk ∨ (∃ part, after = disk.put location (.file part)) →
      post (.error (error Session.refused)) after) :
    Ends setting disk (demand error (Session.write location possible bytes)) post := by
  refine attempt (fun _ after acted => ?_) (fun after acted => ?_) fun parts => ?_
  · split at acted
    · cases acted
      exact done
    · cases acted
  · split at acted
    · cases acted
    · cases acted
      exact failed _ (.inl rfl)
  · split
    · exact failed _ (.inr ⟨_, rfl⟩)
    · exact failed _ (.inl rfl)

/-- The creation of directories may break off after any number of them. -/
theorem createDirectories {error : String → ConversionError} {path : String}
    {post : Except ConversionError Unit → Disk → Prop}
    (done : post (.ok ()) (disk.createDirectories setting.home path).2)
    (failed : ∀ count, post (.error (error Session.refused)) (disk.createFirst setting.home path count).2) :
    Ends setting disk (demand error (Host.createDirectories path)) post := by
  refine attempt (fun _ after acted => ?_) (fun after acted => ?_) failed
  · obtain ⟨-, rfl⟩ := Prod.mk.inj acted
    exact done
  · obtain ⟨-, rfl⟩ := Prod.mk.inj acted
    exact failed _

/-- A staged item gets a fresh place below the directory at the path. -/
theorem stage {error : String → ConversionError} {path : String} {item : Item}
    {post : Except ConversionError Staged → Disk → Prop}
    (staged : ∀ directory, disk.directory? setting.home path = some directory →
      post (.ok ⟨disk.freshLocation directory, path⟩) (disk.put (disk.freshLocation directory) item))
    (refused : post (.error (error Session.refused)) disk) :
    Ends setting disk (demand error (Session.stage path item)) post := by
  refine change (fun made after acted => ?_) refused
  obtain ⟨directory, found, same⟩ := Option.map_eq_some_iff.1 acted
  cases same
  exact staged directory found

theorem accept {ε : Type} {error : ε → ConversionError} {result : Except ε α}
    (ok : ∀ a, result = .ok a → post (.ok a) disk)
    (stop : ∀ e, result = .error e → post (.error (error e)) disk) :
    Ends setting disk (Conversion.accept error result) post := by
  cases result with
  | ok a => exact pure (ok a rfl)
  | error e => exact throw (stop e rfl)

/-- Whatever the step ends with, what was staged is gone afterwards. -/
theorem discarding {staged : Staged} {step : ConversionT SessionM α}
    (ends : Ends setting disk step (ending (fun a after => post (.ok a) (after.erase staged.location))
      fun error after => post (.error error) (after.erase staged.location))) :
    Ends setting disk (Conversion.discarding staged step) post := by
  have ends' : Ends setting disk step fun result after => post result (after.erase staged.location) :=
    ends.imp (fun _ _ holds => holds) fun _ _ holds => holds
  exact ⟨ends'.run⟩

theorem announce {options : ConversionOptions} {stage : Stage}
    {post : Except ConversionError Unit → Disk → Prop} (holds : post (.ok ()) disk) :
    Ends setting disk (Conversion.announce options stage) post :=
  ⟨fun _ _ => holds⟩

/-- A loop over a list. The invariant speaks of the part of the list that is still to come. -/
theorem forM {body : β → ConversionT SessionM PUnit} {post : Except ConversionError PUnit → Disk → Prop}
    (invariant : List β → Disk → Prop)
    (step : ∀ b rest before, invariant (b :: rest) before →
      Ends setting before (body b) (ending (fun _ => invariant rest) fun error => post (.error error)))
    (last : ∀ after, invariant [] after → post (.ok ⟨⟩) after)
    {list : List β} (start : invariant list disk) : Ends setting disk (list.forM body) post := by
  induction list generalizing disk with
  | nil => exact pure (last disk start)
  | cons b rest ih =>
    exact bind ((step b rest disk start).imp (fun _ _ holds => ih holds) fun _ _ holds => holds)

end Ends

/-! ## Preparing and writing -/

/-- The template that a disk holds. -/
def templateAt? (disk : Disk) (home : List String) : Option String → Option String
  | some path => Session.textAt? disk home path
  | none => some Template.standard

/-- What a conversion makes of a disk before it writes anything. -/
structure Prepared (home : List String) (disk : Disk) (options : ConversionOptions) where
  template : String
  archive : Archive
  project : Project
  code : String
  template_eq : templateAt? disk home options.template = some template
  archive_eq : (Session.entriesAt disk home options.input).bind Archive.ofEntries = .ok archive
  project_eq : Project.ofText archive.project = .ok project
  code_eq : project.compile.result = .ok code

namespace Prepared

variable {home : List String} {options : ConversionOptions} (prepared : Prepared home disk options)

/-- The page. -/
def document : String := Template.render prepared.template prepared.code

def selection : Selection := Selection.ofEntries prepared.archive.entries

/-- The assets of the page. -/
def assets : List Asset := prepared.selection.assets

/-- The findings. -/
def log : Log := prepared.project.compile.raised ++ prepared.selection.log

/-- Writes the page, its assets and, if asked for, its code. -/
def write : ConversionT SessionM Unit :=
  match options.emitCode with
  | some path => publishWithCode options path prepared.code prepared.document prepared.assets
  | none => do
    announce options .writing
    publish options.output prepared.document prepared.assets

end Prepared

/-- The input is named, or the conversion stops in preparation with nothing changed. -/
theorem Ends.inputLabel {path : String} {post : Except ConversionError String → Disk → Prop}
    (found : ∀ label, post (.ok label) disk)
    (stopped : ∀ error, error.phase = .preparing → post (.error error) disk) :
    Ends setting disk (Conversion.inputLabel path) post := by
  refine bind (lift fun _ _ => ?_)
  change Ends setting disk (if _ then _ else _) post
  split
  · exact inspect (fun label _ => found label) (stopped _ rfl)
  · exact throw (stopped _ rfl)

theorem Ends.templateText {path? : Option String} {post : Except ConversionError String → Disk → Prop}
    (read : ∀ template, templateAt? disk setting.home path? = some template → post (.ok template) disk)
    (unreadable : ∀ path, post (.error (.templateUnreadable path)) disk) :
    Ends setting disk (Conversion.templateText path?) post := by
  cases path? with
  | none => exact pure (read _ rfl)
  | some path => exact inspect read (unreadable path)

/-- The archive at the input is read as a whole, or the conversion stops. -/
theorem Ends.readArchive {path label : String} {post : Except ConversionError Archive → Disk → Prop}
    (read : ∀ archive, (Session.entriesAt disk setting.home path).bind Archive.ofEntries = .ok archive →
      post (.ok archive) disk)
    (bad : ∀ fault, post (.error (.badArchive label fault)) disk) :
    Ends setting disk (Conversion.readArchive path label) post := by
  refine bind (lift fun clock _ => ?_)
  simp only [Host.readEntries, Session.inspect, Session.attempt]
  cases setting.fault clock with
  | some parts => exact throw (bad _)
  | none => exact accept read fun fault _ => bad fault

/-- A conversion either stops while it prepares, on the disk it was started on, or writes what it
prepared. -/
theorem Ends.convert {options : ConversionOptions} {post : Except ConversionError Log → Disk → Prop}
    (stopped : ∀ error, error.phase = .preparing → post (.error error) disk)
    (written : ∀ prepared : Prepared setting.home disk options, Ends setting disk prepared.write
      (ending (fun _ => post (.ok prepared.log)) fun error => post (.error error))) :
    Ends setting disk (Conversion.convert options) post := by
  refine bind (announce ?_)
  refine bind (inputLabel (fun label => ?_) stopped)
  refine bind (templateText (fun template template_eq => ?_) fun _ => stopped _ rfl)
  refine bind (announce ?_)
  refine bind (readArchive (fun archive archive_eq => ?_) fun _ => stopped _ rfl)
  refine bind (announce ?_)
  refine bind (accept (fun project project_eq => ?_) fun _ _ => stopped _ rfl)
  refine bind (announce ?_)
  refine bind (accept (fun code code_eq => ?_) fun _ _ => stopped _ rfl)
  have ends := written ⟨template, archive, project, code, template_eq, archive_eq, project_eq, code_eq⟩
  unfold Prepared.write at ends
  simp only [ending]
  split
  next path emit =>
    rw [emit] at ends
    exact returning ends
  next emit =>
    rw [emit] at ends
    rw [← bind_assoc]
    exact returning ends

end Conversion

end ScratchPage
