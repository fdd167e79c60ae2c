import ScratchPage.Proofs.Lexical.Project
import ScratchPage.Proofs.Lexical.Texture

/-!
# The lines of written code

Code is cut into lines again, and each line is seen as a row: its tokens, and whether it is the wait for
the screen and nothing else. A written text has one row for each line that was written and an empty one
after the last line break (`rowsOf_writeAll`). Indentation does not show in a row.
-/

namespace ScratchPage
set_option autoImplicit false

/-- The characters of a line without its indentation. -/
def Line.content : Line → List Char
  | .plain code => code.text.toList
  | .opening code => code.text.toList
  | .closing code => code.text.toList
  | .switching code => code.text.toList
  | .remark text => ("// " ++ Text.commentText text).toList

namespace Lexical

/-- A line of code as it is read. -/
structure Row where
  tokens : List Token
  /-- The line is the wait for the screen. -/
  refreshes : Bool
deriving DecidableEq, Repr

def Row.ofLine (line : List Char) : Row := ⟨(tokensOf line).getD [], Text.trim line == screenRefresh.toList⟩

/-- The rows of code, with an empty one after the last line break. -/
def rowsOf (code : String) : List Row := (code.toList.splitOn '\n').map Row.ofLine

/-- The row of a line. -/
def rowOf (line : Line) : Row := Row.ofLine line.content

/-- The tokens of rows. -/
def tokensIn (rows : List Row) : List Token := rows.flatMap Row.tokens

/-! ## Indentation -/

theorem run_blanks (n : Nat) : run .idle (List.replicate n ' ') = some ([], .idle) := by
  induction n with
  | zero => rfl
  | succ n ih =>
    have blank : step .idle ' ' = some ([], .idle) := rfl
    rw [List.replicate_succ, run_cons, blank, Option.bind_some, ih]
    rfl

theorem trimLeft_blanks (n : Nat) (line : List Char) :
    Text.trimLeft (List.replicate n ' ' ++ line) = Text.trimLeft line := by
  have blank : Text.isBlank ' ' = true := by decide
  induction n with
  | zero => rfl
  | succ n ih =>
    rw [List.replicate_succ, List.cons_append, Text.trimLeft, List.dropWhile_cons, if_pos blank]
    exact ih

/-- Blanks before a line change neither its tokens nor the wait that it is. -/
theorem ofLine_blanks (n : Nat) (line : List Char) :
    Row.ofLine (List.replicate n ' ' ++ line) = Row.ofLine line := by
  have tokens : tokensOf (List.replicate n ' ' ++ line) = tokensOf line := by
    simp only [tokensOf, run_append, run_blanks, Option.bind_some]
    cases run .idle line <;> rfl
  have trimmed : Text.trim (List.replicate n ' ' ++ line) = Text.trim line := by
    rw [Text.trim, Text.trim, trimLeft_blanks]
  rw [Row.ofLine, tokens, trimmed]
  rfl

/-! ## Written lines -/

/-- A line is written behind some blanks and before a line break. -/
theorem write_text (w : Writer) (line : Line) :
    ∃ n, (w.write line).text.toList = w.text.toList ++ (List.replicate n ' ' ++ line.content ++ ['\n']) := by
  cases line with
  | plain code | remark text =>
    exact ⟨4 * w.level, by simp [Writer.write, Writer.put_text, Writer.indentation, Line.content]⟩
  | opening code =>
    have same : (w.write (.opening code)).text = (w.put code.text).text := rfl
    exact ⟨4 * w.level, by simp [same, Writer.put_text, Writer.indentation, Line.content]⟩
  | closing code =>
    have same : w.outdent.text = w.text := rfl
    exact ⟨4 * w.outdent.level, by
      simp [Writer.write, Writer.put_text, Writer.indentation, Line.content, same]⟩
  | switching code =>
    have written : (w.write (.switching code)).text = (w.outdent.put code.text).text := rfl
    have same : w.outdent.text = w.text := rfl
    exact ⟨4 * w.outdent.level, by
      simp [written, Writer.put_text, Writer.indentation, Line.content, same]⟩

/-- So are lines in order. -/
theorem writeAll_text (w : Writer) (lines : List Line) :
    ∃ written : List (List Char),
      (w.writeAll lines).text.toList = w.text.toList ++ written.flatMap (· ++ ['\n']) ∧
      List.Forall₂ (fun chars line => ∃ n, chars = List.replicate n ' ' ++ line.content) written lines := by
  induction lines generalizing w with
  | nil => exact ⟨[], by simp [Writer.writeAll], .nil⟩
  | cons line lines ih =>
    obtain ⟨n, first⟩ := write_text w line
    obtain ⟨written, others, each⟩ := ih (w.write line)
    refine ⟨(List.replicate n ' ' ++ line.content) :: written, ?_, .cons ⟨n, rfl⟩ each⟩
    have step : w.writeAll (line :: lines) = (w.write line).writeAll lines := rfl
    rw [step, others, first]
    simp

/-- Lines without breaks in them are split at the breaks between them. -/
theorem splitOn_lines {written : List (List Char)} (oneLine : ∀ chars ∈ written, OneLine chars) :
    (written.flatMap (· ++ ['\n'])).splitOn '\n' = written ++ [[]] := by
  induction written with
  | nil => rfl
  | cons chars written ih =>
    have other : ∀ c ∈ chars, (c == '\n') = false := by
      intro c mem
      rw [beq_eq_false_iff_ne]
      rintro rfl
      exact absurd (oneLine chars (by simp) '\n' mem) (by decide)
    have cut := List.splitOnP_append_cons_of_forall_mem other '\n' rfl (written.flatMap (· ++ ['\n']))
    rw [List.flatMap_cons, List.append_assoc, List.singleton_append, List.splitOn, cut, ← List.splitOn,
      ih fun chars mem => oneLine chars (by simp [mem])]
    rfl

theorem oneLine_blanks {n : Nat} {text : List Char} (line : OneLine text) :
    OneLine (List.replicate n ' ' ++ text) := by
  apply OneLine.append _ line
  intro c mem
  rw [List.eq_of_mem_replicate mem]
  rfl

/-- A written text is cut into its lines again, and nothing stands behind the last line break. -/
theorem splitOn_writeAll {lines : List Line} (oneLine : ∀ line ∈ lines, OneLine line.content) (level : Nat) :
    ∃ written : List (List Char),
      ((Writer.start level).writeAll lines).text.toList.splitOn '\n' = written ++ [[]] ∧
      List.Forall₂ (fun chars line => ∃ n, chars = List.replicate n ' ' ++ line.content) written lines := by
  obtain ⟨written, text, each⟩ := writeAll_text (Writer.start level) lines
  have start : (Writer.start level).text.toList = [] := rfl
  rw [start, List.nil_append] at text
  have whole : ∀ chars ∈ written, OneLine chars := by
    clear text
    induction each with
    | nil => simp
    | cons first _ ih =>
      obtain ⟨n, rfl⟩ := first
      rw [List.forall_mem_cons] at oneLine ⊢
      exact ⟨oneLine_blanks oneLine.1, ih oneLine.2⟩
  exact ⟨written, text ▸ splitOn_lines whole, each⟩

/-- A written text has one row for each line. -/
theorem rowsOf_writeAll {lines : List Line} (oneLine : ∀ line ∈ lines, OneLine line.content) (level : Nat) :
    rowsOf ((Writer.start level).writeAll lines).text = lines.map rowOf ++ [Row.ofLine []] := by
  obtain ⟨written, cut, each⟩ := splitOn_writeAll oneLine level
  have rows : written.map Row.ofLine = lines.map rowOf := by
    clear cut oneLine
    induction each with
    | nil => rfl
    | cons first _ ih =>
      obtain ⟨n, rfl⟩ := first
      rw [List.map_cons, List.map_cons, ih, ofLine_blanks]
      rfl
  rw [rowsOf, cut, List.map_append, rows]
  rfl

/-! ## Tokens -/

section

variable {σ : Type} {observe : σ → Token → Option σ}

/-- A line that passes is read as the tokens of its fragments. -/
theorem tokensOf_of_passLine {s next : σ} {line : Line} (passed : passLine observe s line = some next) :
    tokensOf line.content = some line.tokens := by
  cases line with
  | plain _ | opening _ | closing _ | switching _ =>
    obtain ⟨last, here, -⟩ := Option.map_eq_some_iff.1 passed
    exact tokensOf_of_pass here
  | remark text =>
    rw [Line.content, tokensOf, run_remark]
    rfl

end

/-! ## The wait for the screen -/

/-- The reader is between tokens or in a sign, which no word continues. -/
def Mode.isLoose : Mode → Bool
  | .idle => true
  | .sign _ => true
  | _ => false

/-- Blanks are no characters of words. -/
theorem not_isWordChar_of_blank {c : Char} (blank : Text.isBlank c = true) : isWordChar c = false := by
  simp only [Text.isBlank, Text.blankRanges, List.any_cons, List.any_nil, Bool.or_false, Bool.or_eq_true,
    Bool.and_eq_true, decide_eq_true_eq] at blank
  by_contra word
  have letter : c.isAlpha = (c.isUpper || c.isLower) := rfl
  have upper : c.isUpper = decide (c.val ≥ 'A'.val ∧ c.val ≤ 'Z'.val) := rfl
  have lower : c.isLower = (decide (c.val ≥ 'a'.val) && decide (c.val ≤ 'z'.val)) := rfl
  have code : c.toNat = 95 ∨ c.toNat = 36 ∨ 48 ≤ c.toNat ∧ c.toNat ≤ 122 := by
    simp only [isWordChar, Char.isAlphanum, letter, upper, lower, Char.isDigit,
      UInt32.le_iff_toNat_le, Bool.not_eq_false, Bool.or_eq_true, Bool.and_eq_true, decide_eq_true_eq,
      beq_iff_eq, ge_iff_le] at word
    rcases word with (((⟨low, high⟩ | ⟨low, high⟩) | ⟨low, high⟩) | rfl) | rfl
    · exact .inr (.inr ⟨Nat.le_trans (by decide) low, Nat.le_trans high (by decide)⟩)
    · exact .inr (.inr ⟨Nat.le_trans (by decide) low, Nat.le_trans high (by decide)⟩)
    · exact .inr (.inr ⟨Nat.le_trans (by decide) low, Nat.le_trans high (by decide)⟩)
    · exact .inl rfl
    · exact .inr (.inl rfl)
  omega

/-- A blank leaves the reader between tokens or in a sign. -/
theorem step_blank {mode : Mode} {c : Char} (loose : mode.isLoose = true) (blank : Text.isBlank c = true) :
    ∃ ts next, step mode c = some (ts, next) ∧ next.isLoose = true := by
  have word := not_isWordChar_of_blank blank
  have fresh : (start c).2.isLoose = true := by
    have digit : c.isDigit = false := by
      simp only [isWordChar, Char.isAlphanum, Bool.or_eq_false_iff] at word
      exact word.1.1.2
    simp only [start, digit, word, Bool.false_eq_true, if_false]
    split_ifs with space quote
    · rfl
    · rw [beq_iff_eq] at quote
      subst quote
      cases blank
    · split <;> rfl
  cases mode with
  | idle => exact ⟨_, _, rfl, fresh⟩
  | sign text =>
    have slash : (c == '/') = false := by
      rw [beq_eq_false_iff_ne]
      rintro rfl
      cases blank
    have star : (c == '*') = false := by
      rw [beq_eq_false_iff_ne]
      rintro rfl
      cases blank
    unfold step
    split_ifs with goesOn
    · exact ⟨[], .sign (text ++ [c]), by simp [Mode.advance, slash, star], rfl⟩
    · exact ⟨_, _, rfl, fresh⟩
  | _ => cases loose

/-- Blanks leave a loose reader loose. -/
theorem run_allBlank {mode : Mode} {text : List Char} (loose : mode.isLoose = true)
    (blank : ∀ c ∈ text, Text.isBlank c = true) : ∃ ts last, run mode text = some (ts, last) ∧ last.isLoose = true := by
  induction text generalizing mode with
  | nil => exact ⟨[], mode, rfl, loose⟩
  | cons c rest ih =>
    obtain ⟨ts, next, here, looseNext⟩ := step_blank loose (blank c (by simp))
    obtain ⟨out, last, there, looseLast⟩ := ih looseNext fun d mem => blank d (by simp [mem])
    exact ⟨ts ++ out, last, by simp [run_cons, here, there], looseLast⟩

/-- A trimmed line had blanks before it. -/
theorem exists_of_trim {line inner : List Char} (trimmed : Text.trim line = inner) :
    ∃ before after, line = before ++ inner ++ after ∧ ∀ c ∈ before, Text.isBlank c = true := by
  have left : line.takeWhile Text.isBlank ++ Text.trimLeft line = line := List.takeWhile_append_dropWhile
  have right : (Text.trimLeft line).reverse.takeWhile Text.isBlank ++
      Text.trimLeft (Text.trimLeft line).reverse = (Text.trimLeft line).reverse :=
    List.takeWhile_append_dropWhile
  have back := congrArg List.reverse right
  rw [List.reverse_append, List.reverse_reverse, ← Text.trim, trimmed] at back
  refine ⟨line.takeWhile Text.isBlank, ((Text.trimLeft line).reverse.takeWhile Text.isBlank).reverse, ?_, ?_⟩
  · rw [List.append_assoc, back, left]
  · exact List.all_eq_true.1 List.all_takeWhile

/-- A line that is the wait for the screen calls its method. -/
theorem mem_of_refreshes {line : List Char} {ts : List Token} (read : tokensOf line = some ts)
    (refreshes : (Row.ofLine line).refreshes = true) : .word refreshWord ∈ ts := by
  obtain ⟨before, after, rfl, blank⟩ := exists_of_trim (beq_iff_eq.1 refreshes)
  have outside : Mode.idle.isLoose = true := rfl
  obtain ⟨out, mode, first, loose⟩ := run_allBlank outside blank
  obtain ⟨⟨whole, last⟩, reading, ends⟩ := Option.bind_eq_some_iff.1 read
  obtain ⟨tail, -, rfl⟩ := Option.map_eq_some_iff.1 ends
  have settled : mode.isSettled = true := by cases mode <;> first | rfl | cases loose
  have apart : mode.continues 'a' = false := by
    cases mode with
    | idle => rfl
    | sign text =>
      have last : ∀ s ∈ longSigns, s.getLast? ≠ some 'a' := by decide
      have short : text ++ ['a'] ∉ longSigns := fun long => last _ long (by simp)
      simp [Mode.continues, short]
    | _ => cases loose
  obtain ⟨rest, text⟩ : ∃ rest, screenRefresh.toList = 'a' :: rest := ⟨_, rfl⟩
  have call : run .idle screenRefresh.toList = some ([.word _, .word _, .sign _, .word refreshWord, _, _], _) := rfl
  rw [run_append, run_append, first, Option.bind_some, text,
    run_of_not_continues rest (Mode.finish_of_settled settled) apart, ← text, call] at reading
  obtain ⟨⟨own, _⟩, here, there⟩ := Option.bind_eq_some_iff.1 reading
  obtain ⟨⟨later, _⟩, -, same⟩ := Option.map_eq_some_iff.1 there
  cases here
  cases same
  simp

theorem refreshes_eq_false {line : List Char} {ts : List Token} (read : tokensOf line = some ts)
    (absent : .word refreshWord ∉ ts) : (Row.ofLine line).refreshes = false := by
  by_contra refreshes
  exact absent (mem_of_refreshes read (by simpa using refreshes))

end Lexical

end ScratchPage
