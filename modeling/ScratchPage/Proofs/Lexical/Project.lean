import ScratchPage.Compile.Target
import ScratchPage.Proofs.Compile.Outcome
import ScratchPage.Proofs.Lexical.Descriptor

/-!
# The code of projects

Two properties of code that a page can run at all, for the code of every project that compiles. Its
strings and block comments end on their line and its brackets are nested and closed. Every `await` is
in an asynchronous function, unless a wait has an `await` in its duration: the timer of a wait is set
by an arrow function that is not asynchronous.
-/

namespace ScratchPage
set_option autoImplicit false

/-- The durations of the waits in the scripts of a project. -/
def Project.waits (project : Project) : List Operand :=
  match (Compiling.forAll Compile.target project.inCodeOrder).result with
  | .ok descriptors => descriptors.flatMap Descriptor.waits
  | .error _ => []

namespace Lexical

/-- The brackets that are open after a token, the innermost first. -/
def nest : List Bracket → Token → Option (List Bracket)
  | opened, .opening bracket => some (bracket :: opened)
  | [], .closing _ => none
  | innermost :: opened, .closing bracket => if innermost = bracket then some opened else none
  | opened, _ => some opened

/-- Strings and block comments end on the line where they begin, and brackets are nested and closed. -/
def WellFormed (code : String) : Prop := (tokens code).bind (feed nest []) = some []

instance : DecidablePred WellFormed := fun _ => inferInstanceAs (Decidable (_ = _))

/-- Every `await` outside strings and comments is in an asynchronous function or in no function. -/
def AwaitsAsync (code : String) : Prop :=
  ((tokens code).bind (feed Context.see .start)).map (·.sound) = some true

instance : DecidablePred AwaitsAsync := fun _ => inferInstanceAs (Decidable (_ = _))

/-! ## Contexts and brackets -/

/-- A context keeps its brackets as they are nested. -/
theorem nest_of_see {s t : Context} {token : Token} (seen : s.see token = some t) :
    nest (s.outer.map (·.1)) token = some (t.outer.map (·.1)) := by
  obtain ⟨here, outer, sound⟩ := s
  cases token with
  | word text =>
    simp only [Context.see, Option.some.injEq] at seen
    subst seen
    unfold Context.seeWord
    split_ifs <;> cases outer <;> rfl
  | sign text =>
    simp only [Context.see, Option.some.injEq] at seen
    subst seen
    unfold Context.seeSign
    split_ifs <;> cases outer <;> rfl
  | number | string | comment =>
    cases seen
    cases outer <;> rfl
  | opening bracket =>
    simp only [Context.see, Option.some.injEq] at seen
    subst seen
    cases bracket with
    | round | square => cases outer <;> rfl
    | curly => cases head : here.head <;> cases outer <;> simp [Context.enter, head, nest]
  | closing bracket =>
    cases outer with
    | nil => cases seen
    | cons pair outer =>
      simp only [Context.see, Context.leave, Option.ite_none_right_eq_some, Option.some.injEq] at seen
      obtain ⟨same, rfl⟩ := seen
      simp [nest, same]

/-- The same for tokens in order. -/
theorem feed_nest_of_see {s t : Context} {ts : List Token} (seen : feed Context.see s ts = some t) :
    feed nest (s.outer.map (·.1)) ts = some (t.outer.map (·.1)) := by
  induction ts generalizing s with
  | nil =>
    cases seen
    rfl
  | cons token ts ih =>
    obtain ⟨next, here, there⟩ := Option.bind_eq_some_iff.1 seen
    rw [feed, nest_of_see here]
    exact ih there

/-! ## Brackets around code -/

/-- Brackets that stay open around a token do not matter to it. -/
theorem nest_append (outer : List Bracket) {x y : List Bracket} {token : Token} (nested : nest x token = some y) :
    nest (x ++ outer) token = some (y ++ outer) := by
  cases token with
  | closing bracket =>
    cases x with
    | nil => cases nested
    | cons innermost x =>
      simp only [nest, Option.ite_none_right_eq_some, Option.some.injEq] at nested
      simp [nest, nested]
  | word | number | string | sign | comment | opening =>
    cases x <;> cases nested <;> cases outer <;> rfl

/-- Tokens that are nested in themselves may stand in brackets. -/
theorem feed_nest_append (outer : List Bracket) {x y : List Bracket} {ts : List Token}
    (nested : feed nest x ts = some y) : feed nest (x ++ outer) ts = some (y ++ outer) := by
  induction ts generalizing x with
  | nil =>
    cases nested
    rfl
  | cons token ts ih =>
    obtain ⟨z, here, there⟩ := Option.bind_eq_some_iff.1 nested
    rw [feed, nest_append outer here]
    exact ih there

/-! ## Whole projects -/

theorem observed_descriptor (d : Descriptor) (sound : Bool) :
    Observed Context.see ⟨.fresh true, [], sound⟩ d.code.toList
      (Context.strand ⟨.fresh true, [], sound⟩ (d.waits.any Operand.awaits)) :=
  Observed.writeAll (.nil _) (passage_descriptor d [] sound)

/-- The run over the descriptors of a project. -/
theorem observed_descriptors (descriptors : List Descriptor) (sound : Bool) :
    Observed Context.see ⟨.fresh true, [], sound⟩ (String.join (descriptors.map Descriptor.code)).toList
      (Context.strand ⟨.fresh true, [], sound⟩
        ((descriptors.flatMap Descriptor.waits).any Operand.awaits)) := by
  induction descriptors generalizing sound with
  | nil => exact .nil _
  | cons d rest ih =>
    have first := observed_descriptor d sound
    have others := ih (!d.waits.any Operand.awaits && sound)
    rw [List.map_cons, String.join_cons, String.toList_append, List.flatMap_cons, List.any_append,
      Context.strand_or]
    exact first.append others

/-- Reading the code of a project ends where it began, after every bracket has been closed. -/
theorem feed_compile {project : Project} {code : String} (compiled : project.compile.result = .ok code) :
    (tokens code).bind (feed Context.see .start) =
      some (Context.strand .start (project.waits.any Operand.awaits)) := by
  obtain ⟨descriptors, found, same⟩ := Outcome.bind_eq_ok.1 compiled
  obtain rfl : String.join (descriptors.map Descriptor.code) = code := by simpa using same
  have waits : project.waits = descriptors.flatMap Descriptor.waits := by simp [Project.waits, found]
  rw [waits]
  exact (observed_descriptors descriptors true).feed_tokens

/-! ## Projects as they are stored -/

/-- A stored block. -/
def blockJson (opcode : String) (more : List (String × Json)) : Json :=
  .object (("opcode", .string opcode) :: more)

/-- A stored project with one sprite. -/
def spriteJson (name : String) (blocks : List (String × Json)) : Json :=
  .object [("targets", .array [.object
    [("blocks", .object blocks), ("isStage", .bool false), ("name", .string name)]])]

/-- The project is read and compiled, and passes a test. -/
def compilesTo (json : Json) (test : Project → Bool) : Bool :=
  match Project.ofJson json with
  | .ok project => project.compile.result.toBool && test project
  | .error _ => false

/-- Whether a stored project compiles is evaluated together with a test of it. -/
theorem exists_of_compilesTo {json : Json} {test : Project → Bool} (h : compilesTo json test = true) :
    ∃ project code, Project.ofJson json = .ok project ∧ project.compile.result = .ok code ∧
      test project = true := by
  unfold compilesTo at h
  split at h
  · rename_i project read
    rw [Bool.and_eq_true] at h
    cases compiled : project.compile.result with
    | ok code => exact ⟨project, code, read, compiled, h.2⟩
    | error e =>
      rw [compiled] at h
      cases h.1
  · cases h

/-! ## What holds of all code -/

/-- The code of every project is well formed, whatever texts and values the project holds. -/
theorem compile_wellFormed (project : Project) (code : String)
    (compiled : project.compile.result = .ok code) : WellFormed code := by
  obtain ⟨ts, read, fed⟩ := Option.bind_eq_some_iff.1 (feed_compile compiled)
  rw [WellFormed, read]
  exact feed_nest_of_see fed

/-- Names and texts that would end a string, a comment or a line if they stood in code as they are. -/
def hostileTexts : Json :=
  spriteJson "\"\n\u2028*/"
    [("hat", blockJson "event_whenbroadcastreceived"
      [("fields", .object [("BROADCAST_OPTION", .array [.string "\\\"\r", .null])]),
       ("next", .string "odd"), ("topLevel", .bool true)]),
     ("odd", blockJson "*/ \x7b\n(" [("next", .string "say")]),
     ("say", blockJson "looks_sayforsecs"
      [("inputs", .object
        [("MESSAGE", .array [.number (.int 1), .array [.number (.int 10), .string "\\\n*/"]]),
         ("SECS", .array [.number (.int 2), .string "value"])])]),
     ("value", blockJson "*/\u2029" [])]

theorem compile_wellFormed_hostile :
    ∃ project code, Project.ofJson hostileTexts = .ok project ∧ project.compile.result = .ok code ∧
      WellFormed code := by
  have compiles : compilesTo hostileTexts (fun _ => true) = true := by decide +kernel
  obtain ⟨project, code, read, compiled, -⟩ := exists_of_compilesTo compiles
  exact ⟨project, code, read, compiled, compile_wellFormed project code compiled⟩

/-- Every `await` in the code of a project is in an asynchronous function exactly when no wait has an
`await` in its duration. -/
theorem compile_awaitsAsync_iff (project : Project) (code : String)
    (compiled : project.compile.result = .ok code) :
    AwaitsAsync code ↔ ∀ seconds ∈ project.waits, seconds.awaits = false := by
  rw [AwaitsAsync, feed_compile compiled]
  simp [Context.strand, Context.start]

/-- The test for the mouse pointer, as two stored blocks. -/
def mouseTest : List (String × Json) :=
  [("menu", blockJson "sensing_touchingobjectmenu"
    [("fields", .object [("TOUCHINGOBJECTMENU", .array [.string "_mouse_", .null])])]),
   ("test", blockJson "sensing_touchingobject"
    [("inputs", .object [("TOUCHINGOBJECTMENU", .array [.number (.int 1), .string "menu"])])])]

/-- A loop of waits until the sprite touches the mouse pointer. -/
def loopUntilMouse : Json :=
  spriteJson "Sprite1"
    (("hat", blockJson "event_whenflagclicked" [("next", .string "loop"), ("topLevel", .bool true)]) ::
     ("loop", blockJson "control_repeat_until"
      [("inputs", .object
        [("CONDITION", .array [.number (.int 2), .string "test"]),
         ("SUBSTACK", .array [.number (.int 2), .string "wait"])])]) ::
     mouseTest ++
     [("wait", blockJson "control_wait"
      [("inputs", .object
        [("DURATION", .array [.number (.int 1), .array [.number (.int 5), .string "1"]])])])])

/-- A wait for a known time in a loop until the mouse pointer is touched. -/
theorem compile_awaitsAsync_loop :
    ∃ project code, Project.ofJson loopUntilMouse = .ok project ∧ project.compile.result = .ok code ∧
      project.waits.length = 1 ∧ AwaitsAsync code := by
  have compiles : compilesTo loopUntilMouse (fun project =>
      project.waits.length == 1 && !project.waits.any Operand.awaits) = true := by decide +kernel
  obtain ⟨project, code, read, compiled, test⟩ := exists_of_compilesTo compiles
  simp only [Bool.and_eq_true, beq_iff_eq, Bool.not_eq_true', List.any_eq_false, Bool.not_eq_true] at test
  exact ⟨project, code, read, compiled, test.1, (compile_awaitsAsync_iff project code compiled).2 test.2⟩

/-- A wait for as long as the test for the mouse pointer says. -/
def waitForMouse : Json :=
  spriteJson "Sprite1"
    (("hat", blockJson "event_whenflagclicked" [("next", .string "wait"), ("topLevel", .bool true)]) ::
     mouseTest ++
     [("wait", blockJson "control_wait"
      [("inputs", .object
        [("DURATION", .array [.number (.int 3), .string "test", .array [.number (.int 5), .string "1"]])])])])

/-- The test for the mouse pointer in the duration of a wait is an `await` in an arrow function that
is not asynchronous. -/
theorem waitForMouse_not_awaitsAsync :
    ∃ project code, Project.ofJson waitForMouse = .ok project ∧ project.compile.result = .ok code ∧
      ¬ AwaitsAsync code := by
  have compiles : compilesTo waitForMouse (fun project => project.waits.any Operand.awaits) = true := by
    decide +kernel
  obtain ⟨project, code, read, compiled, stranded⟩ := exists_of_compilesTo compiles
  refine ⟨project, code, read, compiled, ?_⟩
  rw [AwaitsAsync, feed_compile compiled, stranded]
  decide

end Lexical

end ScratchPage
