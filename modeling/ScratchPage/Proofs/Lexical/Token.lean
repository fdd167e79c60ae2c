import Mathlib.Data.List.Basic
import Mathlib.Tactic.FinCases
import Mathlib.Tactic.SplitIfs

/-!
# Tokens of JavaScript

A reader that takes code apart from left to right. Words, numbers and signs are as long as possible;
a string runs from a double quote to the next one that no backslash precedes; comments run to the end
of the line or to `*/`. The reader stops at a line break inside a string or a block comment, and the
end of the code must not fall inside one. It is a machine on modes, so that reading a text in pieces
is the same as reading it whole (`run_append`), and a piece whose first character cannot continue the
token before it can be read on its own (`run_of_not_continues`).
-/

namespace ScratchPage.Lexical
set_option autoImplicit false

inductive Bracket where
  | round
  | square
  | curly
deriving DecidableEq, Repr

/-- A token. The content of a string is kept as it is written. -/
inductive Token where
  | word (text : List Char)
  | number (text : List Char)
  | string (content : List Char)
  | sign (text : List Char)
  | comment
  | opening (bracket : Bracket)
  | closing (bracket : Bracket)
deriving DecidableEq, Repr

/-! ## Characters -/

/-- The characters that end a line. -/
def isTerminator (c : Char) : Bool := c == '\n' || c == '\r' || c == '\u2028' || c == '\u2029'

def isSpace (c : Char) : Bool := c == ' ' || c == '\t' || isTerminator c

def isWordChar (c : Char) : Bool := c.isAlphanum || c == '_' || c == '$'

/-- The token of a bracket. -/
def bracket? (c : Char) : Option Token :=
  if c == '(' then some (.opening .round)
  else if c == ')' then some (.closing .round)
  else if c == '[' then some (.opening .square)
  else if c == ']' then some (.closing .square)
  else if c == '\x7b' then some (.opening .curly)
  else if c == '\x7d' then some (.closing .curly)
  else none

/-- The signs of more than one character. -/
def longSigns : List (List Char) :=
  [['=', '>'], ['=', '='], ['=', '=', '='], ['!', '='], ['!', '=', '='], ['<', '='], ['>', '='],
   ['&', '&'], ['|', '|'], ['?', '?'], ['?', '.'], ['+', '+'], ['-', '-'], ['+', '='], ['-', '='],
   ['*', '='], ['/', '='], ['%', '='], ['*', '*'], ['*', '*', '='], ['<', '<'], ['>', '>'],
   ['>', '>', '>'], ['<', '<', '='], ['>', '>', '='], ['>', '>', '>', '='], ['&', '='], ['|', '='],
   ['^', '='], ['&', '&', '='], ['|', '|', '='], ['?', '?', '=']]

/-! ## The reader -/

/-- What the reader is in the middle of, with the characters of the token so far. -/
inductive Mode where
  | idle
  | word (text : List Char)
  | number (text : List Char)
  | sign (text : List Char)
  | string (content : List Char)
  /-- In a string, after a backslash. -/
  | escape (content : List Char)
  | lineComment
  | blockComment
  /-- In a block comment, after an asterisk. -/
  | blockStar
deriving DecidableEq, Repr

namespace Mode

/-- The character belongs to what the reader is in the middle of. -/
def continues : Mode → Char → Bool
  | .idle, _ => false
  | .word _, c => isWordChar c
  | .number text, c =>
    isWordChar c || c == '.' ||
      ((c == '+' || c == '-') && (text.getLast? == some 'e' || text.getLast? == some 'E'))
  | .sign text, c => (text == ['/'] && (c == '/' || c == '*')) || longSigns.contains (text ++ [c])
  | .string _, _ => true
  | .escape _, _ => true
  | .lineComment, c => !isTerminator c
  | .blockComment, _ => true
  | .blockStar, _ => true

/-- The token that ends here; none in a string or a block comment, which cannot end here. -/
def finish : Mode → Option (List Token)
  | .idle => some []
  | .word text => some [.word text]
  | .number text => some [.number text]
  | .sign text => some [.sign text]
  | .string _ => none
  | .escape _ => none
  | .lineComment => some []
  | .blockComment => none
  | .blockStar => none

/-- Reads a character that continues. -/
def advance : Mode → Char → Option (List Token × Mode)
  | .idle, _ => none
  | .word text, c => some ([], .word (text ++ [c]))
  | .number text, c => some ([], .number (text ++ [c]))
  | .sign text, c =>
    if text == ['/'] && c == '/' then some ([.comment], .lineComment)
    else if text == ['/'] && c == '*' then some ([.comment], .blockComment)
    else some ([], .sign (text ++ [c]))
  | .string content, c =>
    if c == '"' then some ([.string content], .idle)
    else if isTerminator c then none
    else if c == '\\' then some ([], .escape content)
    else some ([], .string (content ++ [c]))
  | .escape content, c =>
    if isTerminator c then none else some ([], .string (content ++ ['\\', c]))
  | .lineComment, _ => some ([], .lineComment)
  | .blockComment, c =>
    if isTerminator c then none
    else if c == '*' then some ([], .blockStar)
    else some ([], .blockComment)
  | .blockStar, c =>
    if c == '/' then some ([], .idle)
    else if isTerminator c then none
    else if c == '*' then some ([], .blockStar)
    else some ([], .blockComment)

end Mode

/-- Reads the first character of a token, or one between tokens. -/
def start (c : Char) : List Token × Mode :=
  if isSpace c then ([], .idle)
  else if c == '"' then ([], .string [])
  else
    match bracket? c with
    | some token => ([token], .idle)
    | none =>
      if c.isDigit then ([], .number [c])
      else if isWordChar c then ([], .word [c])
      else ([], .sign [c])

/-- Reads a character. -/
def step (mode : Mode) (c : Char) : Option (List Token × Mode) :=
  if mode.continues c then mode.advance c
  else mode.finish.map fun done => (done ++ (start c).1, (start c).2)

/-- Reads characters: the tokens completed on the way and the mode at the end. -/
def run : Mode → List Char → Option (List Token × Mode)
  | mode, [] => some ([], mode)
  | mode, c :: rest =>
    (step mode c).bind fun first =>
      (run first.2 rest).map fun last => (first.1 ++ last.1, last.2)

/-- The tokens of a whole text; none when it ends or breaks a line inside a string or a block
comment. -/
def tokensOf (text : List Char) : Option (List Token) :=
  (run .idle text).bind fun last => last.2.finish.map (last.1 ++ ·)

/-- The tokens of code. -/
def tokens (code : String) : Option (List Token) := tokensOf code.toList

/-! ## Observers

A property of a token sequence is checked by a state that takes the tokens one by one and may refuse
one of them. -/

section

variable {σ : Type} (observe : σ → Token → Option σ)

/-- The state after the tokens. -/
def feed : σ → List Token → Option σ
  | s, [] => some s
  | s, t :: rest => (observe s t).bind fun next => feed next rest

theorem feed_append (s : σ) (a b : List Token) :
    feed observe s (a ++ b) = (feed observe s a).bind fun next => feed observe next b := by
  induction a generalizing s with
  | nil => rfl
  | cons t a ih =>
    simp only [List.cons_append, feed, ih]
    cases observe s t <;> rfl

end

/-! ## Reading in pieces -/

@[simp] theorem run_nil (mode : Mode) : run mode [] = some ([], mode) := rfl

theorem run_cons (mode : Mode) (c : Char) (rest : List Char) :
    run mode (c :: rest) = (step mode c).bind fun first =>
      (run first.2 rest).map fun last => (first.1 ++ last.1, last.2) := rfl

/-- A run goes on where it has stopped. -/
theorem run_append (mode : Mode) (a b : List Char) :
    run mode (a ++ b) = (run mode a).bind fun first =>
      (run first.2 b).map fun last => (first.1 ++ last.1, last.2) := by
  induction a generalizing mode with
  | nil => simp
  | cons c a ih =>
    simp only [List.cons_append, run_cons, ih]
    cases step mode c with
    | none => rfl
    | some first =>
      simp only [Option.bind_some]
      cases run first.2 a with
      | none => rfl
      | some middle => simp [Function.comp_def]

/-- A text whose first character does not continue the token before it is read on its own. -/
theorem run_of_not_continues {mode : Mode} {done : List Token} {c : Char} (rest : List Char)
    (ends : mode.finish = some done) (fresh : mode.continues c = false) :
    run mode (c :: rest) =
      (run .idle (c :: rest)).map fun last => (done ++ last.1, last.2) := by
  have here : step mode c = some (done ++ (start c).1, (start c).2) := by simp [step, fresh, ends]
  have idle : step .idle c = some (start c) := rfl
  rw [run_cons, run_cons, here, idle]
  simp [Function.comp_def, List.append_assoc]

/-! ## Texts read on their own -/

/-- The reader is between tokens or at the end of one that any other token may follow. -/
def Mode.isSettled : Mode → Bool
  | .idle => true
  | .word _ => true
  | .number _ => true
  | .sign _ => true
  | _ => false

/-- The token that ends here, if any. -/
def Mode.tail (mode : Mode) : List Token := mode.finish.getD []

theorem Mode.finish_of_settled {mode : Mode} (settled : mode.isSettled = true) :
    mode.finish = some mode.tail := by
  cases mode <;> first | rfl | cases settled

/-- The characters that continue no token outside strings and comments. -/
def isBoundary (c : Char) : Bool :=
  c == ' ' || c == '\n' || c == ',' || c == ';' || c == '"' || (bracket? c).isSome

/-- The characters that end any token. -/
theorem isBoundary_iff {c : Char} : isBoundary c = true ↔
    c ∈ [' ', '\n', ',', ';', '"', '(', ')', '[', ']', '\x7b', '\x7d'] := by
  simp only [isBoundary, bracket?, List.mem_cons, List.not_mem_nil, or_false, Bool.or_eq_true,
    beq_iff_eq, or_assoc]
  constructor
  · rintro (h | h | h | h | h | h)
    all_goals try simp [h]
    split_ifs at h <;> simp_all
  · rintro (h | h | h | h | h | h | h | h | h | h | h) <;> simp [h]

/-- No token goes on with one of them. -/
theorem not_continues_of_boundary {mode : Mode} {c : Char} (settled : mode.isSettled = true)
    (boundary : isBoundary c = true) : mode.continues c = false := by
  have listed := isBoundary_iff.1 boundary
  cases mode with
  | idle => rfl
  | word text =>
    fin_cases listed <;> rfl
  | number text =>
    fin_cases listed <;> rfl
  | sign text =>
    have last : ∀ s ∈ longSigns, s.getLast?.any isBoundary = false := by decide
    have short : text ++ [c] ∉ longSigns := by
      intro long
      have plain := last _ long
      simp [boundary] at plain
    fin_cases listed <;> simp [Mode.continues, short]
  | _ => cases settled

/-- The text is read on its own as these tokens, the last of which may still go on. -/
def Reads (text : List Char) (ts : List Token) : Prop :=
  ∃ out last, run .idle text = some (out, last) ∧ last.isSettled = true ∧ out ++ last.tail = ts

/-- A boundary ends the last token of a text. -/
theorem Reads.run_append {text : List Char} {ts : List Token} (reads : Reads text ts) {c : Char}
    (boundary : isBoundary c = true) (rest : List Char) :
    run .idle (text ++ c :: rest) =
      (run .idle (c :: rest)).map fun last => (ts ++ last.1, last.2) := by
  obtain ⟨out, last, read, settled, rfl⟩ := reads
  rw [Lexical.run_append, read, Option.bind_some,
    run_of_not_continues rest (Mode.finish_of_settled settled) (not_continues_of_boundary settled boundary)]
  simp [Function.comp_def]

end ScratchPage.Lexical
