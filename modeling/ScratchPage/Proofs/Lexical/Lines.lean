import ScratchPage.Proofs.Lexical.Code

/-!
# The tokens of lines

Whether code can be passed over fragment by fragment depends on the observer only as far as it refuses
tokens (`passLines_change`). So, once lines have passed the check of any observer, the tokens of the
text that is written from them are the tokens of their fragments, one after the other
(`tokens_writeAll`), and a sequence of tokens that fits into one line is found in the text only where
it is found in a line (`exists_infix_of_flatMap`).
-/

namespace ScratchPage
set_option autoImplicit false

/-- The tokens of a fragment that is read on its own. -/
def Fragment.tokens (fragment : Fragment) : List Lexical.Token := (Lexical.tokensOf fragment.chars).getD []

/-- The tokens of code whose fragments do not touch. -/
def Code.tokens (code : Code) : List Lexical.Token := code.flatMap Fragment.tokens

/-- The tokens of a line. -/
def Line.tokens : Line → List Lexical.Token
  | .plain code => Code.tokens code
  | .opening code => Code.tokens code
  | .closing code => Code.tokens code
  | .switching code => Code.tokens code
  | .remark _ => [.comment]

@[simp] theorem Code.tokens_append (a b : Code) : Code.tokens (a ++ b) = a.tokens ++ b.tokens :=
  List.flatMap_append

@[simp] theorem Code.tokens_singleton (fragment : Fragment) : Code.tokens [fragment] = fragment.tokens := by
  simp [Code.tokens]

theorem Fragment.tokens_fixed (text : List Char) :
    (Fragment.fixed (String.ofList text)).tokens = (Lexical.tokensOf text).getD [] := by
  rw [Fragment.tokens, Fragment.chars_fixed]

namespace Lexical

theorem tokensOf_of_run {text : List Char} {out : List Token} {last : Mode}
    (read : run .idle text = some (out, last)) (settled : last.isSettled = true) :
    tokensOf text = some (out ++ last.tail) := by
  simp [tokensOf, read, Mode.finish_of_settled settled]

theorem Reads.tokens {fragment : Fragment} {ts : List Token} (reads : Reads fragment.chars ts) :
    fragment.tokens = ts := by
  obtain ⟨out, last, read, settled, rfl⟩ := reads
  rw [Fragment.tokens, tokensOf_of_run read settled, Option.getD_some]

/-- A quoted text is one string, and equal texts are equal strings. -/
theorem tokens_quoted (text : String) :
    (Fragment.quoted text).tokens = [.string (text.toList.flatMap Text.escapeChar)] := by
  have read := (InString.flatMap inString_escapeChar text.toList).run_quoted
  rw [← quoted_toList] at read
  exact Reads.tokens ⟨_, _, read, rfl, rfl⟩

theorem tokens_comment (text : String) : (Fragment.comment text).tokens = [.comment] :=
  Reads.tokens ⟨_, _, run_comment text, rfl, rfl⟩

/-! ## Another observer -/

section

variable {σ τ : Type} {observe : σ → Token → Option σ} {other : τ → Token → Option τ}

/-- Whether a text passes depends on the observer only through the tokens that it is fed. -/
theorem passText_change {mode : Mode} {s : σ} {fragment : Fragment} {last : Mode × σ} {t u : τ}
    (passed : passText observe mode s fragment.chars = some last)
    (fed : feed other t fragment.tokens = some u) :
    passText other mode t fragment.chars = some (last.1, u) := by
  rw [Fragment.tokens] at fed
  revert passed fed
  cases fragment.chars with
  | nil =>
    intro passed fed
    cases passed
    cases fed
    rfl
  | cons c rest =>
    intro passed fed
    simp only [passText, Option.ite_none_left_eq_some, Option.bind_eq_some_iff, Bool.not_eq_true] at passed
    obtain ⟨apart, ⟨out, m⟩, read, done⟩ := passed
    simp only [Option.ite_none_right_eq_some, Option.map_eq_some_iff] at done
    obtain ⟨settled, _, -, rfl⟩ := done
    rw [tokensOf_of_run read settled, Option.getD_some] at fed
    simp [passText, apart, read, settled, fed]

/-- The same for code. -/
theorem pass_change {place last : Mode × σ} {code : Code} {t u : τ}
    (passed : pass observe place code = some last) (fed : feed other t code.tokens = some u) :
    pass other (place.1, t) code = some (last.1, u) := by
  induction code generalizing place t with
  | nil =>
    cases passed
    cases fed
    rfl
  | cons fragment rest ih =>
    obtain ⟨next, here, there⟩ := Option.bind_eq_some_iff.1 passed
    rw [Code.tokens, List.flatMap_cons, feed_append] at fed
    obtain ⟨middle, fedHere, fedThere⟩ := Option.bind_eq_some_iff.1 fed
    rw [pass, passText_change here fedHere, Option.bind_some]
    exact ih there fedThere

theorem passLine_change {s next : σ} {line : Line} {t u : τ} (passed : passLine observe s line = some next)
    (fed : feed other t line.tokens = some u) : passLine other t line = some u := by
  cases line with
  | plain code | opening code | closing code | switching code =>
    obtain ⟨last, here, -⟩ := Option.map_eq_some_iff.1 passed
    exact Option.map_eq_some_iff.2 ⟨_, pass_change here fed, rfl⟩
  | remark text => simpa [Line.tokens, feed, passLine] using fed

/-- Lines that pass for one observer pass for every other observer that accepts their tokens. -/
theorem passLines_change {s next : σ} {lines : List Line} {t u : τ}
    (passed : passLines observe s lines = some next)
    (fed : feed other t (lines.flatMap Line.tokens) = some u) : passLines other t lines = some u := by
  induction lines generalizing s t with
  | nil => exact fed
  | cons line rest ih =>
    obtain ⟨after, here, there⟩ := Option.bind_eq_some_iff.1 passed
    rw [List.flatMap_cons, feed_append] at fed
    obtain ⟨middle, fedHere, fedThere⟩ := Option.bind_eq_some_iff.1 fed
    rw [passLines, passLine_change here fedHere, Option.bind_some]
    exact ih there fedThere

/-- An observer that keeps the tokens it sees. -/
def keep (seen : List Token) (token : Token) : Option (List Token) := some (seen ++ [token])

theorem feed_keep (seen ts : List Token) : feed keep seen ts = some (seen ++ ts) := by
  induction ts generalizing seen with
  | nil => simp [feed]
  | cons t ts ih => simp [feed, keep, ih]

/-- Code that passes is read as the tokens of its fragments. -/
theorem tokensOf_of_pass {s : σ} {last : Mode × σ} {code : Code} (passed : pass observe (.idle, s) code = some last) :
    tokensOf code.text.toList = some code.tokens := by
  have kept : pass keep (.idle, []) code = some (last.1, code.tokens) := pass_change passed (feed_keep [] _)
  have settled : (Mode.idle, ([] : List Token)).1.isSettled = true := rfl
  obtain ⟨out, ts, read, settled, same, fed⟩ := carries_of_pass settled kept
  rw [feed_keep, List.nil_append, Option.some.injEq] at fed
  rw [tokensOf_of_run read settled, same, fed]
  rfl

/-- The check feeds an observer the tokens of the fragments. -/
theorem feed_of_pass {place last : Mode × σ} {code : Code} (passed : pass observe place code = some last) :
    feed observe place.2 code.tokens = some last.2 := by
  induction code generalizing place with
  | nil =>
    cases passed
    rfl
  | cons fragment rest ih =>
    obtain ⟨next, here, there⟩ := Option.bind_eq_some_iff.1 passed
    have first : feed observe place.2 fragment.tokens = some next.2 := by
      rw [Fragment.tokens]
      revert here
      cases fragment.chars with
      | nil =>
        intro here
        cases here
        rfl
      | cons c chars =>
        intro here
        simp only [passText, Option.ite_none_left_eq_some, Option.bind_eq_some_iff] at here
        obtain ⟨-, ⟨out, m⟩, read, done⟩ := here
        simp only [Option.ite_none_right_eq_some, Option.map_eq_some_iff] at done
        obtain ⟨settled, t, fed, rfl⟩ := done
        rw [tokensOf_of_run read settled]
        exact fed
    rw [Code.tokens, List.flatMap_cons, feed_append, first]
    exact ih there

/-- The same for lines. -/
theorem feed_of_passLines {s next : σ} {lines : List Line} (passed : passLines observe s lines = some next) :
    feed observe s (lines.flatMap Line.tokens) = some next := by
  induction lines generalizing s with
  | nil => exact passed
  | cons line rest ih =>
    obtain ⟨after, here, there⟩ := Option.bind_eq_some_iff.1 passed
    have first : feed observe s line.tokens = some after := by
      cases line with
      | plain code | opening code | closing code | switching code =>
        obtain ⟨last, inner, rfl⟩ := Option.map_eq_some_iff.1 here
        exact feed_of_pass inner
      | remark text => simpa [Line.tokens, feed, passLine] using here
    rw [List.flatMap_cons, feed_append, first]
    exact ih there

/-- The tokens of a written text are those of its lines. -/
theorem tokens_writeAll {s next : σ} {lines : List Line} (passed : passLines observe s lines = some next)
    (level : Nat) : tokens ((Writer.start level).writeAll lines).text = some (lines.flatMap Line.tokens) := by
  have kept : passLines keep [] lines = some (lines.flatMap Line.tokens) :=
    passLines_change passed (feed_keep [] _)
  have observed : Observed keep [] ((Writer.start level).writeAll lines).text.toList _ :=
    Observed.writeAll (.nil _) kept
  obtain ⟨ts, read, fed⟩ := Option.bind_eq_some_iff.1 observed.feed_tokens
  rw [feed_keep, List.nil_append] at fed
  rw [read, fed]

end

/-! ## Sequences of tokens -/

/-- A place in joined lists is a place in one of them. -/
theorem split_append {α : Type} {a b before after : List α} {x : α} (split : a ++ b = before ++ x :: after) :
    (∃ rest, a = before ++ x :: rest ∧ after = rest ++ b) ∨
      ∃ first, b = first ++ x :: after ∧ before = a ++ first := by
  obtain ⟨tail, left, right⟩ | ⟨tail, left, right⟩ := List.append_eq_append_iff.1 split
  · exact .inr ⟨tail, right, left⟩
  · cases tail with
    | nil => exact .inr ⟨[], by simpa using right.symm, by simpa using left.symm⟩
    | cons y tail =>
      obtain ⟨rfl, rfl⟩ := List.cons.inj right
      exact .inl ⟨tail, left, rfl⟩

/-- A sequence whose first token is always followed by enough tokens of its own list does not begin in
one list and end in another. -/
theorem exists_infix_of_flatMap {α : Type} {f : α → List Token} {items : List α} {first : Token}
    {rest : List Token}
    (room : ∀ a ∈ items, ∀ before after, f a = before ++ first :: after → rest.length ≤ after.length)
    (occurs : (first :: rest) <:+: items.flatMap f) : ∃ a ∈ items, (first :: rest) <:+: f a := by
  induction items with
  | nil => simp at occurs
  | cons a items ih =>
    rw [List.flatMap_cons] at occurs
    have later : (first :: rest) <:+: items.flatMap f → ∃ b ∈ a :: items, (first :: rest) <:+: f b := by
      intro there
      obtain ⟨b, mem, found⟩ := ih (fun b mem => room b (List.mem_cons_of_mem a mem)) there
      exact ⟨b, List.mem_cons_of_mem a mem, found⟩
    obtain ⟨before, after, split⟩ := occurs
    rw [List.append_assoc] at split
    obtain ⟨own, here, next⟩ | ⟨own, -, next⟩ := List.append_eq_append_iff.1 split
    · cases own with
      | nil => exact later ⟨[], after, by simpa using next⟩
      | cons token own =>
        rw [List.cons_append, List.cons_append, List.cons.injEq] at next
        obtain ⟨rfl, next⟩ := next
        have enough := room a (by simp) before own here
        have whole : rest <+: own ++ items.flatMap f := by
          rw [← next]
          exact List.prefix_append rest after
        have within : rest <+: own :=
          List.prefix_of_prefix_length_le whole (List.prefix_append own _) enough
        obtain ⟨tail, rfl⟩ := within
        exact ⟨a, by simp, before, tail, by simp [here]⟩
    · exact later ⟨own, after, by simpa using next.symm⟩

/-- A sequence in a list that has its first token once stands there. -/
theorem prefix_of_infix {before after rest : List Token} {first : Token} (fresh : first ∉ before)
    (last : first ∉ after) (occurs : (first :: rest) <:+: before ++ first :: after) : rest <+: after := by
  obtain ⟨ahead, behind, split⟩ := occurs
  rw [List.append_assoc, List.cons_append] at split
  obtain ⟨-, -, rfl⟩ := (List.append_cons_inj_of_notMem fresh last).1 split.symm
  exact List.prefix_append rest behind

/-! ## Words -/

/-- The words of a value are few. -/
theorem IsValue.mem_valueWords {inGroup : Bool} {ts : List Token} (value : IsValue inGroup ts)
    {word : List Char} (mem : .word word ∈ ts) : word ∈ valueWords := by
  induction value with
  | nil => simp at mem
  | plain plain =>
    obtain rfl := List.mem_singleton.1 mem
    exact of_decide_eq_true plain
  | comma => simp at mem
  | append _ _ first second => exact (List.mem_append.1 mem).elim first second
  | group bracket _ inside => exact inside (by simpa using mem)

/-- The word does not stand in the code. -/
structure Lacks (word : List Char) (code : Code) : Prop where
  absent : .word word ∉ code.tokens

namespace Lacks

variable {word : List Char}

theorem append {a b : Code} (first : Lacks word a) (second : Lacks word b) : Lacks word (a ++ b) := by
  constructor
  rw [Code.tokens_append, List.mem_append, not_or]
  exact ⟨first.absent, second.absent⟩

theorem fixed {text : List Char} (absent : ((tokensOf text).getD []).contains (.word word) = false) :
    Lacks word [.fixed (String.ofList text)] := by
  constructor
  rw [Code.tokens_singleton, Fragment.tokens_fixed]
  simpa using absent

theorem of_value {fragment : Fragment} (value : ValueText fragment.chars) (other : word ∉ valueWords) :
    Lacks word [fragment] := by
  obtain ⟨ts, reads, isValue⟩ := value.reads
  constructor
  rw [Code.tokens_singleton, reads.tokens]
  exact fun mem => other ((isValue true).mem_valueWords mem)

theorem comment (text : String) : Lacks word (Code.comment text) := by
  constructor
  simp [Code.comment, tokens_comment]

end Lacks

end Lexical

end ScratchPage
