import ScratchPage.Proofs.Lexical.Code

/-!
# Brackets and functions

An observer that keeps the brackets that are open and, for each of them, which kind of function the
code between them belongs to. A function begins with the word `function` and owns the braces after
its parameters; an arrow function begins with the sign `=>` and ends where its expression ends, at a
comma, a semicolon or a closing bracket. Either is asynchronous when the word `async` stands before
it. Code outside all functions counts as asynchronous. The observer refuses a bracket that closes none
and notes an `await` whose function is not asynchronous.
-/

namespace ScratchPage.Lexical
set_option autoImplicit false

/-- A place between brackets. -/
structure Level where
  /-- The function around this place is asynchronous. -/
  async : Bool
  /-- The function around the brackets is asynchronous. -/
  base : Bool
  /-- The word `async` stands before a function that has not begun. -/
  marked : Bool
  /-- After the word `function`, whether the function whose braces come next is asynchronous. -/
  head : Option Bool
deriving DecidableEq, Repr

/-- The beginning of what stands between brackets. -/
def Level.fresh (async : Bool) : Level := ⟨async, async, false, none⟩

/-- A place in code. -/
structure Context where
  here : Level
  /-- The open brackets, the innermost first, with the places where they were opened. -/
  outer : List (Bracket × Level)
  /-- Every `await` so far belongs to an asynchronous function. -/
  sound : Bool
deriving DecidableEq, Repr

namespace Context

/-- The beginning of code. -/
def start : Context := ⟨.fresh true, [], true⟩

def enter (s : Context) : Bracket → Context
  | .curly =>
    match s.here.head with
    | some async => ⟨.fresh async, (.curly, { s.here with head := none }) :: s.outer, s.sound⟩
    | none => ⟨.fresh s.here.async, (.curly, s.here) :: s.outer, s.sound⟩
  | bracket => ⟨.fresh s.here.async, (bracket, s.here) :: s.outer, s.sound⟩

def leave (s : Context) (bracket : Bracket) : Option Context :=
  match s.outer with
  | [] => none
  | (opened, level) :: rest => if opened = bracket then some ⟨level, rest, s.sound⟩ else none

def seeWord (s : Context) (word : List Char) : Context :=
  if word = ['a', 'w', 'a', 'i', 't'] then { s with sound := s.here.async && s.sound }
  else if word = ['a', 's', 'y', 'n', 'c'] then { s with here := { s.here with marked := true } }
  else if word = ['f', 'u', 'n', 'c', 't', 'i', 'o', 'n'] then
    { s with here := { s.here with marked := false, head := some s.here.marked } }
  else s

def seeSign (s : Context) (sign : List Char) : Context :=
  if sign = ['=', '>'] then { s with here := { s.here with async := s.here.marked, marked := false } }
  else if sign = [','] ∨ sign = [';'] then
    { s with here := { s.here with async := s.here.base, marked := false } }
  else s

/-- Sees the next token. -/
def see (s : Context) : Token → Option Context
  | .word text => some (s.seeWord text)
  | .sign text => some (s.seeSign text)
  | .opening bracket => some (s.enter bracket)
  | .closing bracket => s.leave bracket
  | .number _ => some s
  | .string _ => some s
  | .comment => some s

/-! ## Values -/

/-- Tokens of plain values leave the context as it is. -/
theorem see_plain {t : Token} (plain : t.isPlain = true) (s : Context) : s.see t = some s := by
  cases t with
  | word text =>
    have listed : text ∈ valueWords := of_decide_eq_true plain
    fin_cases listed <;> rfl
  | sign text =>
    simp only [Token.isPlain, List.mem_cons, List.not_mem_nil, or_false, not_or, decide_eq_true_eq] at plain
    simp [see, seeSign, plain]
  | number | string => rfl
  | comment | opening | closing => cases plain

theorem enter_of_head {s : Context} (outside : s.here.head = none) (bracket : Bracket) :
    s.enter bracket = ⟨.fresh s.here.async, (bracket, s.here) :: s.outer, s.sound⟩ := by
  cases bracket <;> simp [enter, outside]

/-- The tokens of a value leave the context as it was. Commas need a place that no arrow has changed. -/
theorem feed_value {inGroup : Bool} {ts : List Token} (value : IsValue inGroup ts) (s : Context)
    (outside : s.here.head = none)
    (fresh : inGroup = true → s.here = .fresh s.here.async) : feed see s ts = some s := by
  induction value generalizing s with
  | nil => rfl
  | plain plain => simp [feed, see_plain plain]
  | comma =>
    obtain ⟨⟨async, base, marked, head⟩, outer, sound⟩ := s
    obtain ⟨rfl, rfl, rfl⟩ : base = async ∧ marked = false ∧ head = none := by
      simpa [Level.fresh] using fresh rfl
    rfl
  | append _ _ first second =>
    rw [feed_append, first s outside fresh]
    exact second s outside fresh
  | group bracket _ inside =>
    have entered : s.see (.opening bracket) =
        some ⟨.fresh s.here.async, (bracket, s.here) :: s.outer, s.sound⟩ :=
      congrArg some (enter_of_head outside bracket)
    rw [List.cons_append, feed, entered]
    simp only [Option.bind_some]
    rw [feed_append, inside _ rfl fun _ => rfl]
    simp [feed, see, leave]

/-- The context after code of one function that may have an `await`. -/
def await (s : Context) (awaits : Bool) : Context :=
  { s with sound := bif s.here.async then s.sound else !awaits && s.sound }

theorem await_false (s : Context) : s.await false = s := by
  obtain ⟨here, outer, sound⟩ := s
  cases h : here.async <;> simp [await, h]

theorem await_true (s : Context) : s.await true = { s with sound := s.here.async && s.sound } := by
  cases h : s.here.async <;> simp [await, h]

theorem await_or (s : Context) (a b : Bool) : s.await (a || b) = (s.await a).await b := by
  cases h : s.here.async <;> simp [await, h, Bool.and_assoc, Bool.and_comm]

/-- The context after code that may have an `await` in a function that is not asynchronous. -/
def strand (s : Context) (strands : Bool) : Context := { s with sound := !strands && s.sound }

theorem strand_or (s : Context) (a b : Bool) : s.strand (a || b) = (s.strand a).strand b := by
  simp [strand, Bool.and_assoc, Bool.and_comm]

end Context

/-! ## Phrases -/

/-- The modes after which code may begin: between tokens, or after a `!`. -/
def Mode.isOpen : Mode → Bool
  | .idle => true
  | .sign ['!'] => true
  | _ => false

theorem not_touches_of_open {mode : Mode} {c : Char} (isOpen : mode.isOpen = true) (leads : c ≠ '=') :
    touches mode c = false := by
  unfold Mode.isOpen at isOpen
  split at isOpen
  · simp [touches, Mode.continues]
  · simp [touches, Mode.continues, longSigns, leads]
  · cases isOpen

/-- Code that can stand wherever an expression can, with or without an `await`. -/
def Phrase (code : Code) (awaits : Bool) : Prop :=
  ∃ last : Mode, ∀ (mode : Mode) (s : Context), mode.isOpen = true → s.here.head = none →
    pass Context.see (mode, s) code = some (last, s.await awaits)

namespace Phrase

variable {code : Code} {awaits : Bool}

/-- How phrases are passed over, in a form that needs no condition on the place before them. -/
theorem all_passed {α : Type} {code : α → Code} {awaits : α → Bool} {given : α → Prop}
    (phrase : ∀ a, given a → Phrase (code a) (awaits a)) :
    ∃ (last : α → Mode) (other : α → Mode × Context → Option (Mode × Context)), ∀ a, given a → ∀ place,
      pass Context.see place (code a) =
        bif place.1.isOpen && place.2.here.head.isNone then some (last a, place.2.await (awaits a))
        else other a place := by
  have : Nonempty Mode := ⟨.idle⟩
  have known : ∀ a, given a → ∃ last : Mode, ∀ place : Mode × Context,
      (place.1.isOpen && place.2.here.head.isNone) = true →
        pass Context.see place (code a) = some (last, place.2.await (awaits a)) := by
    intro a isGiven
    obtain ⟨last, passes⟩ := phrase a isGiven
    refine ⟨last, fun place ready => ?_⟩
    rw [Bool.and_eq_true, Option.isNone_iff_eq_none] at ready
    exact passes place.1 place.2 ready.1 ready.2
  exact exists_passed known

theorem passed (phrase : Phrase code awaits) :
    ∃ (last : Mode) (other : Mode × Context → Option (Mode × Context)), ∀ place,
      pass Context.see place code =
        bif place.1.isOpen && place.2.here.head.isNone then some (last, place.2.await awaits)
        else other place := by
  obtain ⟨last, other, passes⟩ := all_passed fun (_ : Unit) (_ : True) => phrase
  exact ⟨last (), other (), passes () trivial⟩

/-- A phrase is checked after each of the modes that may stand before it. -/
theorem of_modes {last : Mode}
    (passes : ∀ async base marked outer sound,
      pass Context.see (.idle, ⟨⟨async, base, marked, none⟩, outer, sound⟩) code =
        some (last, Context.await ⟨⟨async, base, marked, none⟩, outer, sound⟩ awaits) ∧
      pass Context.see (.sign ['!'], ⟨⟨async, base, marked, none⟩, outer, sound⟩) code =
        some (last, Context.await ⟨⟨async, base, marked, none⟩, outer, sound⟩ awaits)) :
    Phrase code awaits := by
  refine ⟨last, ?_⟩
  rintro mode ⟨⟨async, base, marked, head⟩, outer, sound⟩ isOpen ⟨⟩
  obtain ⟨idle, after⟩ := passes async base marked outer sound
  unfold Mode.isOpen at isOpen
  split at isOpen
  · exact idle
  · exact after
  · cases isOpen

/-- A value is a phrase. -/
theorem of_value {fragment : Fragment} (value : ValueText fragment.chars) : Phrase [fragment] false := by
  obtain ⟨ts, ⟨out, last, read, settled, rfl⟩, isValue⟩ := value.reads
  obtain ⟨c, rest, eq, leads⟩ := value.leads
  refine ⟨last, fun mode s isOpen outside => ?_⟩
  rw [eq] at read
  have fed := Context.feed_value (isValue false) s outside (by simp)
  simp [pass_singleton, eq, passText, not_touches_of_open isOpen leads, read, settled, fed,
    Context.await_false]

theorem quoted (text : String) : Phrase (Code.quoted text) false := of_value (valueText_quoted text)

theorem number (value : Float) : Phrase (Code.number value) false := of_value (valueText_number value)

theorem integer (value : Int) : Phrase (Code.integer value) false := of_value (valueText_integer value)

theorem data (value : Json) : Phrase (Code.data value) false := of_value (valueText_data value)

theorem comment (text : String) : Phrase (Code.comment text) false := by
  refine ⟨.idle, fun mode s isOpen _ => ?_⟩
  obtain ⟨rest, eq⟩ : ∃ rest, (Fragment.comment text).chars = '/' :: rest :=
    ⟨_, by simp [Fragment.chars, Fragment.text]; rfl⟩
  have read := run_comment text
  rw [← Fragment.chars, eq] at read
  simp [Code.comment, pass_singleton, eq, passText, not_touches_of_open isOpen (c := '/') (by decide),
    read, Mode.isSettled, Mode.tail, Mode.finish, feed, Context.see, Context.await_false]

end Phrase

/-! ## Passages -/

/-- The level is the beginning of what stands between brackets. -/
def Level.isFresh (level : Level) (async : Bool) : Bool :=
  level.async == async && level.base == async && !level.marked && level.head.isNone

theorem Level.eq_of_isFresh {level : Level} {async : Bool} (fresh : level.isFresh async = true) :
    level = .fresh async := by
  obtain ⟨here, base, marked, head⟩ := level
  simp only [isFresh, Bool.and_eq_true, beq_iff_eq, Bool.not_eq_true', Option.isNone_iff_eq_none] at fresh
  obtain ⟨⟨⟨rfl, rfl⟩, rfl⟩, rfl⟩ := fresh
  rfl

/-- Lines that can stand at the beginning of brackets in a function of this kind, as any number of
times in a row. They may have an `await` in an inner function that is not asynchronous. -/
def Passage (async : Bool) (lines : List Line) (strands : Bool) : Prop :=
  ∀ outer sound, passLines Context.see ⟨.fresh async, outer, sound⟩ lines =
    some (Context.strand ⟨.fresh async, outer, sound⟩ strands)

namespace Passage

variable {async : Bool}

/-- How a passage is passed over, in a form that needs no condition on the place before it. -/
theorem passed {lines : List Line} {strands : Bool} (passage : Passage async lines strands) :
    ∃ other : Context → Option Context, ∀ s, passLines Context.see s lines =
      bif s.here.isFresh async then some (s.strand strands) else other s := by
  refine ⟨fun s => passLines Context.see s lines, fun s => ?_⟩
  cases fresh : s.here.isFresh async with
  | true =>
    obtain ⟨here, outer, sound⟩ := s
    obtain rfl : here = .fresh async := Level.eq_of_isFresh fresh
    exact passage outer sound
  | false => rfl

theorem nil : Passage async [] false := fun _ _ => rfl

theorem append {a b : List Line} {first second : Bool} (passageA : Passage async a first)
    (passageB : Passage async b second) : Passage async (a ++ b) (first || second) := by
  intro outer sound
  rw [passLines_append, passageA outer sound, Context.strand_or]
  exact passageB outer (!first && sound)

/-- Items of a list, each on a line of its own with a comma. -/
theorem items {α : Type} (code : α → Code) (items : List α)
    (each : ∀ a ∈ items, ∃ awaits, Phrase (code a) awaits) :
    Passage true (items.map fun a => .plain (code a ++ ",")) false := by
  intro outer sound
  induction items with
  | nil => rfl
  | cons a rest ih =>
    obtain ⟨awaits, phrase⟩ := each a (by simp)
    obtain ⟨last, f, first⟩ := phrase.passed
    simp only [List.map_cons, passLines, passLine, pass_append, pass_singleton, first]
    repeat rw [Fragment.chars_fixed]
    exact ih fun b mem => each b (by simp [mem])

end Passage

end ScratchPage.Lexical
