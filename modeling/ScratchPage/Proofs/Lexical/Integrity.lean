import ScratchPage.Proofs.Compile.Tracked
import ScratchPage.Proofs.Lexical.Project
import ScratchPage.Proofs.Lexical.Texture

/-!
# Operands stand alone

The text of every operand is a single operand wherever code is put around it. Its brackets, strings and
comments are closed, it stays on its line, and outside its brackets and strings there is nothing but
names, numbers and points, and the minus sign of a number. So no operator beside it can take a part of
it: an operand that is read after the code before it ends where the text ends (`StandsAlone.placed`).

The shape of an operand is checked by a machine that goes through its characters with the reader and
sees the tokens that are completed on the way (`look`). What stands between brackets is passed over.
-/

namespace ScratchPage.Lexical
set_option autoImplicit false

/-! ## The grammar of operands -/

/-- How far an operand has been read. -/
inductive Stage where
  /-- Nothing but signs in front. -/
  | signs
  /-- A whole operand, which may go on. -/
  | whole
  /-- After a point. -/
  | point
deriving DecidableEq, Repr

/-- An operand that is being read, with the brackets that are open in it. -/
structure Outline where
  stage : Stage
  opened : List Bracket
deriving DecidableEq, Repr

namespace Outline

def start : Outline := ⟨.signs, []⟩

def done : Outline := ⟨.whole, []⟩

/-- Sees the next token of an operand: signs in front, then a name, a number, a string or something in
brackets, then properties, calls and items. Where no such token follows, the operand has ended. -/
def see (s : Outline) (token : Token) : Option Outline :=
  match s.opened with
  | _ :: _ => (nest s.opened token).map fun opened => ⟨s.stage, opened⟩
  | [] =>
    match s.stage, token with
    | .signs, .sign text => if text = ['-'] ∨ text = ['!'] then some s else none
    | .signs, .word _ => some done
    | .signs, .number _ => some done
    | .signs, .string _ => some done
    | .whole, .sign text => if text = ['.'] ∨ text = ['?', '.'] then some ⟨.point, []⟩ else none
    | .point, .word _ => some done
    | .signs, .opening .round => some ⟨.whole, [.round]⟩
    | .signs, .opening .square => some ⟨.whole, [.square]⟩
    | .whole, .opening .round => some ⟨.whole, [.round]⟩
    | .whole, .opening .square => some ⟨.whole, [.square]⟩
    | _, _ => none

/-- The longest operand at the beginning of tokens, and the tokens after it. -/
def take : Outline → List Token → Option (List Token × List Token)
  | s, [] => if s = done then some ([], []) else none
  | s, token :: rest =>
    match s.see token with
    | some next => (take next rest).map fun split => (token :: split.1, split.2)
    | none => if s = done then some ([], token :: rest) else none

end Outline

/-- The longest operand at the beginning of tokens, and the tokens after it. -/
def operandAt (ts : List Token) : Option (List Token × List Token) := Outline.start.take ts

/-- The token goes on with an operand that stands before it. -/
def Token.extendsOperand : Token → Bool
  | .sign text => text == ['.'] || text == ['?', '.']
  | .opening bracket => bracket != .curly
  | _ => false

/-- The sign may stand in front of an operand. -/
def Token.isFront : Token → Bool
  | .sign text => text == ['-'] || text == ['!']
  | _ => false

/-! ## Texts that stand alone -/

/-- What may stand outside strings and brackets: names, numbers, points, and the marks at which strings
and brackets begin. -/
def isOperandChar (c : Char) : Bool := isWordChar c || c == '.' || c == '"' || (bracket? c).isSome

/-- After this text the reader is outside strings, comments and brackets. -/
def isOutside (before : List Char) : Bool :=
  match run .idle before with
  | some (ts, mode) => mode.isSettled && feed nest [] ts == some []
  | none => false

/-- A number without a sign. -/
def isMagnitude (text : List Char) : Bool :=
  tokensOf text == some [.number text] ||
    tokensOf text == some [.word ['I', 'n', 'f', 'i', 'n', 'i', 't', 'y']]

/-- Outside strings and brackets there are names, numbers and points only, and no sign but the minus of
a number. -/
def Bare (text : List Char) : Prop :=
  ∀ before c after, text = before ++ c :: after → isOutside before = true →
    isOperandChar c = true ∨ before = [] ∧ c = '-' ∧ isMagnitude after = true

/-- A text that is one operand on its own and beside any operator. -/
structure StandsAlone (text : List Char) : Prop where
  oneLine : OneLine text
  /-- Strings and comments end inside the text, and brackets are nested and closed. -/
  closed : ∃ ts, Reads text ts ∧ feed nest [] ts = some []
  bare : Bare text
  /-- After a blank, a bracket or a `!`, and before a token that does not go on with an operand, the text
  is read as it is read on its own, and the operand that begins there, with any signs in front, is all of
  it and nothing else. -/
  placed : ∀ {before after : List Char} {earlier later : List Token} {mode : Mode},
    run .idle before = some (earlier, mode) → mode.isOpen = true →
    after.head?.all isBoundary = true → tokensOf after = some later →
    later.head?.all (fun t => !t.extendsOperand) = true →
    ∃ own, tokensOf text = some own ∧
      tokensOf (before ++ text ++ after) = some (earlier ++ mode.tail ++ own ++ later) ∧
      ∀ signs : List Token, signs.all Token.isFront = true →
        operandAt (signs ++ own ++ later) = some (signs ++ own, later)

/-! ## Reading an operand -/

namespace Outline

theorem see_front {token : Token} (front : token.isFront = true) : start.see token = some start := by
  cases token with
  | sign text =>
    simp only [Token.isFront, Bool.or_eq_true, beq_iff_eq] at front
    simp [see, start, front]
  | _ => cases front

/-- Signs in front leave the outline at its start. -/
theorem feed_front {signs : List Token} (front : signs.all Token.isFront = true) :
    feed see start signs = some start := by
  induction signs with
  | nil => rfl
  | cons token signs ih =>
    rw [List.all_cons, Bool.and_eq_true] at front
    rw [feed, see_front front.1]
    exact ih front.2

/-- A whole operand ends before any token that does not extend it. -/
theorem see_done {token : Token} (other : token.extendsOperand = false) : done.see token = none := by
  cases token with
  | sign text =>
    simp only [Token.extendsOperand, Bool.or_eq_false_iff, beq_eq_false_iff_ne] at other
    simp [see, done, other]
  | opening bracket =>
    cases bracket with
    | curly => rfl
    | round | square => cases other
  | _ => rfl

/-- An operand ends where a token follows that does not go on with it. -/
theorem take_append {s : Outline} {own later : List Token} (fed : feed see s own = some done)
    (ends : later.head?.all (fun t => !t.extendsOperand) = true) : s.take (own ++ later) = some (own, later) := by
  induction own generalizing s with
  | nil =>
    cases fed
    cases later with
    | nil => rfl
    | cons token later =>
      have refused : done.see token = none := see_done (by simpa using ends)
      simp [take, refused]
  | cons token own ih =>
    obtain ⟨next, here, there⟩ := Option.bind_eq_some_iff.1 fed
    simp [take, here, ih there]

/-- The brackets of an operand are nested like those of any code. -/
theorem nest_of_see {s next : Outline} {token : Token} (seen : s.see token = some next) :
    nest s.opened token = some next.opened := by
  obtain ⟨stage, opened⟩ := s
  cases opened with
  | cons innermost outer =>
    obtain ⟨after, nested, rfl⟩ := Option.map_eq_some_iff.1 seen
    exact nested
  | nil =>
    cases token with
    | word text | number text | string text =>
      cases stage <;> first | (cases seen; rfl) | cases seen
    | sign text =>
      cases stage with
      | signs | whole =>
        simp only [see, Option.ite_none_right_eq_some, Option.some.injEq] at seen
        simp [← seen.2, nest]
      | point => cases seen
    | opening bracket => cases bracket <;> cases stage <;> first | (cases seen; rfl) | cases seen
    | comment | closing bracket => cases stage <;> cases seen

/-- An outline keeps its brackets as they are nested. -/
theorem feed_nest_of_see {s next : Outline} {ts : List Token} (seen : feed see s ts = some next) :
    feed nest s.opened ts = some next.opened := by
  induction ts generalizing s with
  | nil =>
    cases seen
    rfl
  | cons token ts ih =>
    obtain ⟨middle, here, there⟩ := Option.bind_eq_some_iff.1 seen
    rw [feed, nest_of_see here]
    exact ih there

end Outline

/-! ## Looking at characters -/

/-- Looks at characters: outside strings and brackets only those of names, numbers and points pass, and
the tokens are seen as soon as they are complete. -/
def look : Mode × Outline → List Char → Option (Mode × Outline)
  | place, [] => some place
  | place, c :: rest =>
    if place.1.isSettled && place.2.opened.isEmpty && !isOperandChar c then none
    else
      (step place.1 c).bind fun read =>
        (feed Outline.see place.2 read.1).bind fun next => look (read.2, next) rest

/-- Looks at a text after a token that may still go on. -/
def lookText (place : Mode × Outline) : List Char → Option (Mode × Outline)
  | [] => some place
  | c :: rest =>
    if touches place.1 c then none
    else
      (look (.idle, place.2) (c :: rest)).bind fun last =>
        if last.1.isSettled then
          (feed Outline.see last.2 last.1.tail).map fun next => (last.1, next)
        else none

/-- Looks at code. -/
def lookCode : Mode × Outline → Code → Option (Mode × Outline)
  | place, [] => some place
  | place, fragment :: rest => (lookText place fragment.chars).bind fun next => lookCode next rest

/-- A look goes on where it has stopped. -/
theorem look_append (place : Mode × Outline) (a b : List Char) :
    look place (a ++ b) = (look place a).bind fun next => look next b := by
  induction a generalizing place with
  | nil => rfl
  | cons c a ih =>
    simp only [List.cons_append, look, ih]
    split_ifs with refused
    · rfl
    · cases step place.1 c with
      | none => rfl
      | some read =>
        simp only [Option.bind_some]
        cases feed Outline.see place.2 read.1 <;> rfl

theorem lookCode_append (place : Mode × Outline) (a b : Code) :
    lookCode place (a ++ b) = (lookCode place a).bind fun next => lookCode next b := by
  induction a generalizing place with
  | nil => rfl
  | cons fragment a ih =>
    simp only [List.cons_append, lookCode, ih]
    cases lookText place fragment.chars <;> rfl

theorem lookCode_singleton (place : Mode × Outline) (fragment : Fragment) :
    lookCode place [fragment] = lookText place fragment.chars := by
  simp only [lookCode]
  cases lookText place fragment.chars <;> rfl

/-- Whoever looks at characters reads them and sees their tokens. -/
theorem run_of_look {place last : Mode × Outline} {text : List Char} (looked : look place text = some last) :
    ∃ ts, run place.1 text = some (ts, last.1) ∧ feed Outline.see place.2 ts = some last.2 := by
  induction text generalizing place with
  | nil =>
    cases looked
    exact ⟨[], rfl, rfl⟩
  | cons c rest ih =>
    simp only [look, Option.ite_none_left_eq_some, Option.bind_eq_some_iff] at looked
    obtain ⟨-, ⟨ts, mode⟩, here, next, fed, there⟩ := looked
    obtain ⟨out, read, seen⟩ := ih there
    refine ⟨ts ++ out, ?_, ?_⟩
    · simp [run_cons, here, read]
    · rw [feed_append, fed]
      exact seen

/-- A text that passes is bare. -/
theorem bare_of_look {text : List Char} {last : Mode × Outline}
    (looked : look (.idle, .start) text = some last) : Bare text := by
  rintro before c after rfl outside
  rw [look_append, Option.bind_eq_some_iff] at looked
  obtain ⟨⟨mode, outline⟩, first, second⟩ := looked
  obtain ⟨ts, read, seen⟩ := run_of_look first
  have nested : feed nest [] ts = some outline.opened := Outline.feed_nest_of_see seen
  simp only [isOutside, read, nested, Bool.and_eq_true, beq_iff_eq, Option.some.injEq] at outside
  simp only [look, Option.ite_none_left_eq_some, outside.1, outside.2] at second
  exact .inl (by simpa using second.1)

/-- No bracket is pending. -/
theorem opened_of_tail {mode : Mode} {s next : Outline} (seen : feed Outline.see s mode.tail = some next) :
    next.opened = s.opened := by
  have nested := Outline.feed_nest_of_see seen
  cases mode <;> cases opened : s.opened <;>
    simpa [Mode.tail, Mode.finish, feed, nest, opened, eq_comm] using nested

/-- The look at a text is sound. The token that may still go on is seen already in one of the two outlines and
pending in the other. -/
theorem look_of_lookText {place last : Mode × Outline} {s : Outline} {text : List Char}
    (settled : place.1.isSettled = true) (pending : feed Outline.see s place.1.tail = some place.2)
    (looked : lookText place text = some last) :
    ∃ t, look (place.1, s) text = some (last.1, t) ∧ last.1.isSettled = true ∧
      feed Outline.see t last.1.tail = some last.2 := by
  obtain ⟨mode, outline⟩ := place
  cases text with
  | nil =>
    cases looked
    exact ⟨s, rfl, settled, pending⟩
  | cons c rest =>
    simp only [lookText, Option.ite_none_left_eq_some, Option.bind_eq_some_iff, Bool.not_eq_true] at looked
    obtain ⟨apart, ⟨m, t⟩, here, done⟩ := looked
    simp only [Option.ite_none_right_eq_some, Option.map_eq_some_iff] at done
    obtain ⟨settledLast, next, seen, rfl⟩ := done
    refine ⟨t, ?_, settledLast, seen⟩
    have fresh : step mode c = some (mode.tail ++ (start c).1, (start c).2) := by
      simp [step, not_continues_of_not_touches settled apart, Mode.finish_of_settled settled]
    have idle : step .idle c = some (start c) := rfl
    have same : outline.opened = s.opened := opened_of_tail pending
    simp only [look, Mode.isSettled, idle, Option.bind_some, same] at here
    simp only [look, settled, fresh, Option.bind_some, feed_append, pending]
    exact here

/-- The look at code is sound, fragment after fragment. -/
theorem look_of_lookCode {place last : Mode × Outline} {s : Outline} {code : Code}
    (settled : place.1.isSettled = true) (pending : feed Outline.see s place.1.tail = some place.2)
    (looked : lookCode place code = some last) :
    ∃ t, look (place.1, s) code.text.toList = some (last.1, t) ∧ last.1.isSettled = true ∧
      feed Outline.see t last.1.tail = some last.2 := by
  induction code generalizing place s with
  | nil =>
    cases looked
    exact ⟨s, rfl, settled, pending⟩
  | cons fragment rest ih =>
    obtain ⟨next, here, there⟩ := Option.bind_eq_some_iff.1 looked
    obtain ⟨t, first, settledNext, pendingNext⟩ := look_of_lookText settled pending here
    obtain ⟨u, second, last⟩ := ih settledNext pendingNext there
    refine ⟨u, ?_, last⟩
    have text : (Code.text (fragment :: rest)).toList = fragment.chars ++ (Code.text rest).toList := by
      simp [Code.text, Fragment.chars]
    rw [text, look_append, first]
    exact second

/-! ## Between brackets -/

section

variable {outer : List Bracket} (inside : outer ≠ []) (stage : Stage)

include inside

/-- Inside brackets an outline follows the nesting and nothing else. -/
theorem Outline.feed_inside {x y : List Bracket} {ts : List Token}
    (nested : feed nest x ts = some y) :
    feed see ⟨stage, x ++ outer⟩ ts = some ⟨stage, y ++ outer⟩ := by
  induction ts generalizing x with
  | nil =>
    cases nested
    rfl
  | cons token ts ih =>
    obtain ⟨z, here, there⟩ := Option.bind_eq_some_iff.1 nested
    have seen : see ⟨stage, x ++ outer⟩ token = some ⟨stage, z ++ outer⟩ := by
      obtain ⟨innermost, rest, eq⟩ : ∃ innermost rest, x ++ outer = innermost :: rest :=
        List.exists_cons_of_ne_nil (by simp [inside])
      have within := nest_append outer here
      rw [eq] at within
      simp [see, eq, within]
    rw [feed, seen]
    exact ih there

/-- Between brackets nothing is looked at but the brackets. -/
theorem look_inside {mode last : Mode} {x y : List Bracket} {text : List Char}
    {out : List Token} (read : run mode text = some (out, last)) (nested : feed nest x out = some y) :
    look (mode, ⟨stage, x ++ outer⟩) text = some (last, ⟨stage, y ++ outer⟩) := by
  induction text generalizing mode x out with
  | nil =>
    cases read
    cases nested
    rfl
  | cons c rest ih =>
    obtain ⟨⟨ts, next⟩, here, there⟩ := Option.bind_eq_some_iff.1 read
    obtain ⟨⟨later, _⟩, readLater, same⟩ := Option.map_eq_some_iff.1 there
    simp only [Prod.mk.injEq] at same
    obtain ⟨rfl, rfl⟩ := same
    rw [feed_append] at nested
    obtain ⟨z, first, second⟩ := Option.bind_eq_some_iff.1 nested
    have seen := Outline.feed_inside inside stage first
    simp [look, inside, here, seen, ih readLater second]

/-- Inside brackets any text that passes may be looked at. -/
theorem lookText_inside {mode : Mode} {s : Context} {text : List Char} {last : Mode × Context}
    (passed : passText Context.see mode s text = some last) :
    lookText (mode, ⟨stage, s.outer.map (·.1) ++ outer⟩) text =
      some (last.1, ⟨stage, last.2.outer.map (·.1) ++ outer⟩) := by
  cases text with
  | nil =>
    cases passed
    rfl
  | cons c rest =>
    simp only [passText, Option.ite_none_left_eq_some, Option.bind_eq_some_iff, Bool.not_eq_true] at passed
    obtain ⟨apart, ⟨out, m⟩, read, done⟩ := passed
    simp only [Option.ite_none_right_eq_some, Option.map_eq_some_iff] at done
    obtain ⟨settled, t, fed, rfl⟩ := done
    have nested := feed_nest_of_see fed
    rw [feed_append] at nested
    obtain ⟨z, first, second⟩ := Option.bind_eq_some_iff.1 nested
    have looked := look_inside inside stage read first
    have seen := Outline.feed_inside inside stage second
    simp [lookText, apart, looked, settled, seen]

/-- Inside brackets any code that passes may be looked at. -/
theorem lookCode_inside {place last : Mode × Context} {code : Code}
    (passed : pass Context.see place code = some last) :
    lookCode (place.1, ⟨stage, place.2.outer.map (·.1) ++ outer⟩) code =
      some (last.1, ⟨stage, last.2.outer.map (·.1) ++ outer⟩) := by
  induction code generalizing place with
  | nil =>
    cases passed
    rfl
  | cons fragment rest ih =>
    obtain ⟨next, here, there⟩ := Option.bind_eq_some_iff.1 passed
    rw [lookCode, lookText_inside inside stage here]
    exact ih there

end

/-- How phrases between brackets are looked at, in a form that needs no condition on the place before
them. -/
theorem Phrase.all_looked {α : Type} {code : α → Code} {awaits : α → Bool} (phrase : ∀ a, Phrase (code a) (awaits a)) :
    ∃ (last : α → Mode) (other : α → Mode × Outline → Option (Mode × Outline)), ∀ a, True → ∀ place,
      lookCode place (code a) =
        bif place.1.isOpen && !place.2.opened.isEmpty then some (last a, place.2) else other a place := by
  have : Nonempty Mode := ⟨.idle⟩
  have known : ∀ a, True → ∃ last : Mode, ∀ place : Mode × Outline,
      (place.1.isOpen && !place.2.opened.isEmpty) = true → lookCode place (code a) = some (last, place.2) := by
    intro a _
    obtain ⟨last, passes⟩ := phrase a
    refine ⟨last, fun ⟨mode, stage, opened⟩ ready => ?_⟩
    simp only [Bool.and_eq_true, Bool.not_eq_true', List.isEmpty_eq_false_iff] at ready
    simpa [Context.start, Context.await] using
      lookCode_inside ready.2 stage (passes mode .start ready.1 rfl)
  exact exists_passed known

/-! ## Operands -/

/-- In a string nothing is seen. -/
theorem look_inString {mode last : Mode} {s : Outline} {text : List Char} (inside : mode.inString = true)
    (read : run mode text = some ([], last)) : look (mode, s) text = some (last, s) := by
  induction text generalizing mode with
  | nil =>
    cases read
    rfl
  | cons c rest ih =>
    obtain ⟨⟨ts, next⟩, here, there⟩ := Option.bind_eq_some_iff.1 read
    obtain ⟨⟨out, _⟩, later, same⟩ := Option.map_eq_some_iff.1 there
    simp only [Prod.mk.injEq, List.append_eq_nil_iff] at same
    obtain ⟨⟨rfl, rfl⟩, rfl⟩ := same
    have stays := (step_inString inside here).2
    have unsettled : mode.isSettled = false := by
      cases mode <;> first | rfl | cases inside
    simp [look, unsettled, here, feed, ih stays later]

/-- A quoted text is a whole operand. -/
theorem lookCode_quoted (text : String) : lookCode (.idle, .start) (Code.quoted text) = some (.idle, .done) := by
  have inside := InString.flatMap inString_escapeChar text.toList
  have content : look (.string [], .start) _ = some (.string _, .start) := look_inString rfl (inside [])
  have chars : (Fragment.quoted text).chars = '"' :: (text.toList.flatMap Text.escapeChar ++ ['"']) :=
    quoted_toList text
  have mark : look (.idle, .start) ['"'] = some (.string [], .start) := rfl
  rw [Code.quoted, lookCode_singleton, chars, lookText, ← List.singleton_append, look_append, mark,
    Option.bind_some, look_append, content]
  rfl

/-- The code of an operand that is not a number shows nothing but names and points outside its strings and brackets. -/
theorem lookCode_operand (operand : Operand) (other : ∀ value, operand ≠ .number value) :
    ∃ last, lookCode (.idle, .start) operand.code = some (last, .done) := by
  -- What stands between brackets is looked at as phrases, and `rfl` looks at the fixed texts.
  obtain ⟨_, _, inner⟩ := Phrase.all_looked phrase_operand
  obtain ⟨_, _, quoted⟩ := Phrase.all_looked Phrase.quoted
  obtain ⟨_, _, number⟩ := Phrase.all_looked Phrase.number
  obtain ⟨_, _, comment⟩ := Phrase.all_looked Phrase.comment
  cases operand with
  | number value => exact absurd rfl (other value)
  | text value => exact ⟨.idle, lookCode_quoted value⟩
  | binary sort _ _ | math sort _ | costumeName sort | costumeNumber sort =>
    cases sort <;>
    · simp only [Operand.code, Operator.sign, MathFunction.around, Wearer.code, lookCode_append, lookCode_singleton,
        inner]
      repeat rw [Fragment.chars_fixed]
      exact ⟨_, rfl⟩
  | _ =>
    simp only [Operand.code, Operand.listCode, Operand.randomFunction, List.cons_append, lookCode, lookCode_append,
      inner, quoted, number, comment]
    repeat rw [Fragment.chars_fixed]
    exact ⟨_, rfl⟩

/-! ## Numbers -/

/-- The plain digits of a decimal are characters of operands. -/
theorem plain_chars (d : Decimal) : ∀ c ∈ d.plain, isOperandChar c = true := by
  have digit : ∀ c : Char, c.isDigit = true → isOperandChar c = true := by
    intro c digit
    simp [isOperandChar, isWordChar, Char.isAlphanum, digit]
  obtain ⟨c, whole, fraction, eq, first, before, after⟩ := pointed_digits d.digits d.pointPlace
  have left : ∀ e ∈ c :: whole, isOperandChar e = true := by
    rw [List.forall_mem_cons]
    exact ⟨digit c first, fun e mem => digit e (before e mem)⟩
  have right : ∀ e ∈ '.' :: fraction, isOperandChar e = true := by
    rw [List.forall_mem_cons]
    exact ⟨by decide, fun e mem => digit e (after e mem)⟩
  unfold Decimal.plain
  split
  · rw [List.forall_mem_singleton]
    decide
  · simp only [eq]
    split
    · exact left
    · rw [List.forall_mem_append]
      exact ⟨left, right⟩

theorem bare_of_forall {text : List Char} (plain : ∀ c ∈ text, isOperandChar c = true) : Bare text := by
  rintro before c after rfl -
  exact .inl (plain c (by simp))

/-- A minus may stand before a magnitude. -/
theorem bare_minus {text : List Char} (magnitude : isMagnitude text = true)
    (plain : ∀ c ∈ text, isOperandChar c = true) : Bare ('-' :: text) := by
  intro before c after split _
  cases before with
  | nil =>
    cases split
    exact .inr ⟨rfl, rfl, magnitude⟩
  | cons first before =>
    cases split
    exact .inl (plain c (by simp))

theorem IsNumeral.isMagnitude {text : List Char} (numeral : IsNumeral text) : isMagnitude text = true := by
  have read : tokensOf text = some [.number text] := tokensOf_of_run numeral.run rfl
  simp [Lexical.isMagnitude, read]

/-- A number is one operand, with its minus sign if it has one. -/
theorem number_outline (f : Float) :
    Bare (numberLiteral f).toList ∧
      ∃ own, Reads (numberLiteral f).toList own ∧ feed Outline.see .start own = some .done := by
  unfold numberLiteral
  split_ifs with nan infinite negative
  · exact ⟨bare_of_forall (List.all_eq_true.1 (by decide)), _, ⟨_, _, rfl, rfl, rfl⟩, rfl⟩
  · exact ⟨bare_minus (by decide) (List.all_eq_true.1 (by decide)), _, ⟨_, _, rfl, rfl, rfl⟩, rfl⟩
  · exact ⟨bare_of_forall (List.all_eq_true.1 (by decide)), _, ⟨_, _, rfl, rfl, rfl⟩, rfl⟩
  · have numeral := isNumeral_plain (Decimal.shortest .up f)
    have plain := plain_chars (Decimal.shortest .up f)
    rw [Decimal.signed, String.toList_ofList]
    split_ifs with negative
    · exact ⟨bare_minus numeral.isMagnitude plain, _, ⟨_, _, numeral.run_minus, rfl, rfl⟩, rfl⟩
    · exact ⟨bare_of_forall plain, _, ⟨_, _, numeral.run, rfl, rfl⟩, rfl⟩

/-- Every operand is bare and is read as one outline. -/
theorem operand_outline (operand : Operand) :
    Bare operand.code.text.toList ∧
      ∃ own, Reads operand.code.text.toList own ∧ feed Outline.see .start own = some .done := by
  by_cases number : ∃ value, operand = .number value
  · obtain ⟨value, rfl⟩ := number
    rw [Operand.code, Code.number, Code.text_singleton]
    exact number_outline value
  · obtain ⟨last, looked⟩ := lookCode_operand operand fun value eq => number ⟨value, eq⟩
    obtain ⟨t, passed, settled, pending⟩ := look_of_lookCode rfl (s := .start) rfl looked
    obtain ⟨ts, read, seen⟩ := run_of_look passed
    refine ⟨bare_of_look passed, ts ++ last.tail, ⟨ts, last, read, settled, rfl⟩, ?_⟩
    rw [feed_append, seen]
    exact pending

/-! ## Beside other code -/

/-- A text between other code is read as it is read on its own. -/
theorem tokensOf_between {before text after : List Char} {earlier own later : List Token} {mode : Mode}
    (read : run .idle before = some (earlier, mode)) (isOpen : mode.isOpen = true)
    (leads : ∃ c rest, text = c :: rest ∧ c ≠ '=') (reads : Reads text own)
    (boundary : after.head?.all isBoundary = true) (follows : tokensOf after = some later) :
    tokensOf (before ++ text ++ after) = some (earlier ++ mode.tail ++ own ++ later) := by
  obtain ⟨c, rest, rfl, other⟩ := leads
  obtain ⟨out, last, readText, settled, rfl⟩ := reads
  have settledMode : mode.isSettled = true := by
    unfold Mode.isOpen at isOpen
    split at isOpen <;> first | rfl | cases isOpen
  have apart := not_continues_of_not_touches settledMode (not_touches_of_open isOpen other)
  have first : run .idle (before ++ c :: rest) = some (earlier ++ (mode.tail ++ out), last) := by
    rw [run_append, read, Option.bind_some,
      run_of_not_continues rest (Mode.finish_of_settled settledMode) apart, readText]
    rfl
  cases after with
  | nil =>
    cases follows
    rw [List.append_nil, tokensOf_of_run first settled]
    simp
  | cons d more =>
    have fresh := not_continues_of_boundary settled (by simpa using boundary)
    obtain ⟨⟨outLater, m⟩, readLater, ends⟩ := Option.bind_eq_some_iff.1 follows
    obtain ⟨tail, finish, rfl⟩ := Option.map_eq_some_iff.1 ends
    have whole : run .idle (before ++ c :: rest ++ d :: more) =
        some (earlier ++ (mode.tail ++ out) ++ (last.tail ++ outLater), m) := by
      rw [run_append, first, Option.bind_some,
        run_of_not_continues more (Mode.finish_of_settled settled) fresh, readLater]
      rfl
    simp only [tokensOf, whole, Option.bind_some, finish, Option.map_some]
    simp

/-- A bare text that is read as one outline stands alone: beside an operator the outline ends where the text
does. -/
theorem standsAlone_of_outline {text : List Char} {own : List Token} (line : OneLine text) (bare : Bare text)
    (reads : Reads text own) (fed : feed Outline.see .start own = some .done) : StandsAlone text where
  oneLine := line
  closed := ⟨own, reads, Outline.feed_nest_of_see fed⟩
  bare := bare
  placed := by
    intro before after earlier later mode read isOpen boundary follows ends
    have leads : ∃ c rest, text = c :: rest ∧ c ≠ '=' := by
      cases text with
      | nil =>
        obtain ⟨out, last, read, -, rfl⟩ := reads
        cases read
        cases fed
      | cons c rest =>
        refine ⟨c, rest, rfl, ?_⟩
        rintro rfl
        rcases bare [] '=' rest rfl rfl with operand | ⟨-, minus, -⟩
        · cases operand
        · cases minus
    have tokens : tokensOf text = some own := by
      obtain ⟨out, last, read, settled, rfl⟩ := reads
      exact tokensOf_of_run read settled
    refine ⟨own, tokens, tokensOf_between read isOpen leads reads boundary follows, fun signs front => ?_⟩
    apply Outline.take_append _ ends
    rw [feed_append, Outline.feed_front front]
    exact fed

/-- The code of every operand stands alone. -/
theorem standsAlone_operand (operand : Operand) : StandsAlone operand.code.text.toList := by
  obtain ⟨bare, own, reads, fed⟩ := operand_outline operand
  exact standsAlone_of_outline (oneLine_operand operand) bare reads fed

/-- Whatever the blocks of a target are, what a block, a slot or the content of a slot becomes stands
alone. -/
theorem compiled_operand_standsAlone (scope : Scope) (active : List BlockId) :
    (∀ id, (Compile.value scope active id).Yields fun operand => StandsAlone operand.code.text.toList) ∧
    (∀ owner slot coercion,
      (Compile.input (Compile.value scope active) owner slot coercion).Yields fun operand =>
        StandsAlone operand.code.text.toList) ∧
    ∀ owner slot payload coercion,
      (Compile.resolve (Compile.value scope active) owner slot payload coercion).Yields fun operand =>
        StandsAlone operand.code.text.toList :=
  ⟨fun _ operand _ => standsAlone_operand operand, fun _ _ _ operand _ => standsAlone_operand operand,
    fun _ _ _ _ operand _ => standsAlone_operand operand⟩

/-- A text that would end its string and its line, compared with a block that has no code and whose name
would end its comment. -/
def hostileEquation : Scope where
  target := Compile.spriteOf
    [{ Compile.linkedBlock "equals" (.reporter .equals) [] none with
       inputs := [("OPERAND1", ⟨.literal .string "\"\n, 1", none⟩), ("OPERAND2", ⟨.block ⟨"odd"⟩, none⟩)] },
     Compile.linkedBlock "odd" (.unknown "*/ + 1") [] none]
  procedures := []

/-- A comparison of a text that would end its string and its line with a comment that would end itself. -/
theorem compiled_operand_standsAlone_hostile :
    ∃ operand, (Compile.value hostileEquation [] ⟨"equals"⟩).result = .ok operand ∧
      operand.code.text = "(\"\\\"\\n, 1\" == (/*Unimplemented value ?? ? 1*/ null))" ∧
      StandsAlone operand.code.text.toList := by
  have compiled : (Compile.value hostileEquation [] ⟨"equals"⟩).result.toOption.map (·.code.text) =
      some "(\"\\\"\\n, 1\" == (/*Unimplemented value ?? ? 1*/ null))" := by decide +kernel
  cases found : (Compile.value hostileEquation [] ⟨"equals"⟩).result with
  | error e =>
    rw [found] at compiled
    cases compiled
  | ok operand =>
    rw [found] at compiled
    exact ⟨operand, rfl, Option.some.inj compiled,
      (compiled_operand_standsAlone hostileEquation []).1 ⟨"equals"⟩ operand found⟩

end ScratchPage.Lexical
