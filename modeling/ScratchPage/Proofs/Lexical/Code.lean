import ScratchPage.Code.Writer
import ScratchPage.Proofs.Lexical.Literal

/-!
# Reading code by fragments

An observer of the tokens of a whole text need not see the text: it may go through the code fragment
by fragment, provided that no fragment continues the token before it. `passLines` makes this check
for lines of code, and a text that the writer produces from lines that pass is read without a fault
and leaves the observer in the same state (`Observed.writeAll`).
-/

namespace ScratchPage
set_option autoImplicit false

theorem Writer.put_text (w : Writer) (text : String) :
    (w.put text).text = w.text ++ (Writer.indentation w.level ++ text) ++ "\n" := by
  simp [Writer.put, Writer.text]

/-- The characters of a fragment. -/
def Fragment.chars (fragment : Fragment) : List Char := fragment.text.toList

theorem Fragment.chars_fixed (text : List Char) : (Fragment.fixed (String.ofList text)).chars = text :=
  String.toList_ofList

namespace Lexical

section

variable {σ : Type} (observe : σ → Token → Option σ)

/-! ## The check -/

/-- The character may continue the token before it. -/
def touches (mode : Mode) (c : Char) : Bool := !isBoundary c && mode.continues c

/-- Passes over text after a token that may still go on. -/
def passText (mode : Mode) (s : σ) : List Char → Option (Mode × σ)
  | [] => some (mode, s)
  | c :: rest =>
    if touches mode c then none
    else
      (run .idle (c :: rest)).bind fun last =>
        if last.2.isSettled then
          (feed observe s (last.1 ++ last.2.tail)).map fun next => (last.2, next)
        else none

/-- Passes over code. -/
def pass : Mode × σ → Code → Option (Mode × σ)
  | place, [] => some place
  | place, fragment :: rest =>
    (passText observe place.1 place.2 fragment.chars).bind fun next => pass next rest

/-- Passes over a line. -/
def passLine (s : σ) : Line → Option σ
  | .plain code => (pass observe (.idle, s) code).map (·.2)
  | .opening code => (pass observe (.idle, s) code).map (·.2)
  | .closing code => (pass observe (.idle, s) code).map (·.2)
  | .switching code => (pass observe (.idle, s) code).map (·.2)
  | .remark _ => observe s .comment

/-- Passes over lines in order. -/
def passLines : σ → List Line → Option σ
  | s, [] => some s
  | s, line :: rest => (passLine observe s line).bind fun next => passLines next rest

theorem pass_append (place : Mode × σ) (a b : Code) :
    pass observe place (a ++ b) = (pass observe place a).bind fun next => pass observe next b := by
  induction a generalizing place with
  | nil => rfl
  | cons fragment a ih =>
    simp only [List.cons_append, pass, ih]
    cases passText observe place.1 place.2 fragment.chars <;> rfl

theorem pass_singleton (place : Mode × σ) (fragment : Fragment) :
    pass observe place [fragment] = passText observe place.1 place.2 fragment.chars := by
  simp only [pass]
  cases passText observe place.1 place.2 fragment.chars <;> rfl

theorem passLines_append (s : σ) (a b : List Line) :
    passLines observe s (a ++ b) = (passLines observe s a).bind fun next => passLines observe next b := by
  induction a generalizing s with
  | nil => rfl
  | cons line a ih =>
    simp only [List.cons_append, passLines, ih]
    cases passLine observe s line <;> rfl

/-- Readings that are known at some places only, in a form that needs no condition on the place. -/
theorem exists_passed {τ α β : Type} [Nonempty β] {read : α → τ → Option τ} {given : α → Prop} {ready : τ → Bool}
    {after : α → β → τ → τ} (known : ∀ a, given a → ∃ b, ∀ s, ready s = true → read a s = some (after a b s)) :
    ∃ (last : α → β) (other : α → τ → Option τ), ∀ a, given a → ∀ s,
      read a s = bif ready s then some (after a (last a) s) else other a s := by
  choose! last passes using known
  refine ⟨last, read, fun a isGiven s => ?_⟩
  cases here : ready s with
  | true => exact passes a isGiven s here
  | false => rfl

/-! ## What the check shows -/

theorem not_continues_of_not_touches {mode : Mode} {c : Char} (settled : mode.isSettled = true)
    (apart : touches mode c = false) : mode.continues c = false := by
  cases boundary : isBoundary c with
  | true => exact not_continues_of_boundary settled boundary
  | false => simpa [touches, boundary] using apart

/-- Reading from a mode to a mode gives tokens that take the observer from a state to a state. The
token that may still go on at the end is counted here, the one at the beginning is not. -/
def Carries (mode : Mode) (s : σ) (text : List Char) (last : Mode) (t : σ) : Prop :=
  ∃ out ts, run mode text = some (out, last) ∧ last.isSettled = true ∧
    out ++ last.tail = mode.tail ++ ts ∧ feed observe s ts = some t

variable {observe}

/-- What is carried in two parts is carried as a whole. -/
theorem Carries.append {mode middle last : Mode} {s t u : σ} {a b : List Char}
    (first : Carries observe mode s a middle t) (second : Carries observe middle t b last u) :
    Carries observe mode s (a ++ b) last u := by
  obtain ⟨outA, tsA, readA, -, tokensA, fedA⟩ := first
  obtain ⟨outB, tsB, readB, settled, tokensB, fedB⟩ := second
  refine ⟨outA ++ outB, tsA ++ tsB, ?_, settled, ?_, ?_⟩
  · rw [run_append, readA]
    simp [readB]
  · rw [List.append_assoc, tokensB, ← List.append_assoc, tokensA, List.append_assoc]
  · rw [feed_append, fedA]
    exact fedB

/-- The check of a text is sound: after a token that may still go on, the text does not continue it. -/
theorem carries_of_passText {mode last : Mode} {s t : σ} {text : List Char}
    (settled : mode.isSettled = true) (passed : passText observe mode s text = some (last, t)) :
    Carries observe mode s text last t := by
  cases text with
  | nil =>
    cases passed
    exact ⟨[], [], rfl, settled, by simp, rfl⟩
  | cons c rest =>
    simp only [passText, Option.ite_none_left_eq_some, Option.bind_eq_some_iff, Bool.not_eq_true] at passed
    obtain ⟨apart, ⟨out, m⟩, read, done⟩ := passed
    simp only [Option.ite_none_right_eq_some, Option.map_eq_some_iff, Prod.mk.injEq] at done
    obtain ⟨settledLast, u, fed, rfl, rfl⟩ := done
    refine ⟨mode.tail ++ out, out ++ m.tail, ?_, settledLast, by simp, fed⟩
    rw [run_of_not_continues rest (Mode.finish_of_settled settled)
      (not_continues_of_not_touches settled apart), read]
    rfl

/-- The check of code is sound, fragment after fragment. -/
theorem carries_of_pass {place last : Mode × σ} {code : Code} (settled : place.1.isSettled = true)
    (passed : pass observe place code = some last) :
    Carries observe place.1 place.2 code.text.toList last.1 last.2 := by
  induction code generalizing place with
  | nil =>
    cases passed
    exact ⟨[], [], rfl, settled, by simp, rfl⟩
  | cons fragment rest ih =>
    simp only [pass, Option.bind_eq_some_iff] at passed
    obtain ⟨next, here, there⟩ := passed
    have first := carries_of_passText settled here
    have settledNext : next.1.isSettled = true := by
      obtain ⟨_, _, _, settled, _⟩ := first
      exact settled
    simpa [Code.text, Fragment.chars] using first.append (ih settledNext there)

/-- Reading the text takes the observer from a state to a state and ends between tokens. -/
def Observed (observe : σ → Token → Option σ) (s : σ) (text : List Char) (t : σ) : Prop :=
  ∃ ts, run .idle text = some (ts, .idle) ∧ feed observe s ts = some t

theorem Observed.nil (s : σ) : Observed observe s [] s := ⟨[], rfl, rfl⟩

/-- What is observed in two parts is observed as a whole. -/
theorem Observed.append {s t u : σ} {a b : List Char} (first : Observed observe s a t)
    (second : Observed observe t b u) : Observed observe s (a ++ b) u := by
  obtain ⟨tsA, readA, fedA⟩ := first
  obtain ⟨tsB, readB, fedB⟩ := second
  refine ⟨tsA ++ tsB, ?_, ?_⟩
  · rw [run_append, readA]
    simp [readB]
  · rw [feed_append, fedA]
    exact fedB

theorem Observed.feed_tokens {s t : σ} {code : String} (observed : Observed observe s code.toList t) :
    (tokens code).bind (feed observe s) = some t := by
  obtain ⟨ts, read, fed⟩ := observed
  rw [tokens, tokensOf, read]
  simpa [Mode.finish] using fed

/-- Blanks are not seen. -/
theorem observed_blanks (s : σ) (n : Nat) : Observed observe s (List.replicate n ' ') s := by
  induction n with
  | zero => exact .nil s
  | succ n ih => exact Observed.append (a := [' ']) ⟨[], rfl, rfl⟩ ih

/-- A line break ends the last token. -/
theorem Carries.observed {last : Mode} {s t : σ} {text : List Char}
    (carries : Carries observe .idle s text last t) : Observed observe s (text ++ ['\n']) t := by
  obtain ⟨out, ts, read, settled, tokens, fed⟩ := carries
  refine ⟨ts, ?_, fed⟩
  have ends : run last ['\n'] = some (last.tail, .idle) := by
    rw [run_of_not_continues [] (Mode.finish_of_settled settled)
      (not_continues_of_boundary settled (by decide))]
    simp [show run .idle ['\n'] = some ([], .idle) from rfl]
  rw [run_append, read]
  simpa [ends] using tokens.trans (List.nil_append ts)

theorem observed_of_pass {s t : σ} {code : Code}
    (passed : (pass observe (.idle, s) code).map (·.2) = some t) :
    Observed observe s (code.text.toList ++ ['\n']) t := by
  obtain ⟨last, here, rfl⟩ := Option.map_eq_some_iff.1 passed
  exact (carries_of_pass rfl here).observed

theorem observed_remark {s t : σ} {text : String} (passed : observe s .comment = some t) :
    Observed observe s (("// " ++ Text.commentText text).toList ++ ['\n']) t := by
  refine ⟨[.comment], ?_, by simpa [feed] using passed⟩
  rw [run_append, run_remark]
  rfl

/-! ## Written lines -/

theorem Observed.put {s t u : σ} {w : Writer} {text : String} (before : Observed observe s w.text.toList t)
    (line : Observed observe t (text.toList ++ ['\n']) u) :
    Observed observe s (w.put text).text.toList u := by
  have indented := (observed_blanks t (4 * w.level)).append line
  simpa [Writer.put_text, Writer.indentation] using before.append indented

/-- The indentation of a line is not observed. -/
theorem Observed.write {s t u : σ} {w : Writer} {line : Line}
    (before : Observed observe s w.text.toList t) (passed : passLine observe t line = some u) :
    Observed observe s (w.write line).text.toList u := by
  cases line with
  | plain code => exact before.put (observed_of_pass passed)
  | opening code => exact before.put (observed_of_pass passed)
  | closing code => exact Observed.put (w := w.outdent) before (observed_of_pass passed)
  | switching code => exact Observed.put (w := w.outdent) before (observed_of_pass passed)
  | remark text => exact before.put (observed_remark passed)

/-- Lines that pass are read without a fault, and the observer sees what the check says. -/
theorem Observed.writeAll {s t u : σ} {w : Writer} {lines : List Line}
    (before : Observed observe s w.text.toList t) (passed : passLines observe t lines = some u) :
    Observed observe s (w.writeAll lines).text.toList u := by
  induction lines generalizing w t with
  | nil =>
    cases passed
    exact before
  | cons line lines ih =>
    obtain ⟨next, here, there⟩ := Option.bind_eq_some_iff.1 passed
    exact ih (before.write here) there

end

end Lexical

end ScratchPage
