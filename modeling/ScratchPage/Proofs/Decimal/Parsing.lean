import Mathlib.Data.List.DropRight
import Mathlib.Tactic.FinCases
import ScratchPage.Proofs.Decimal.Grammar

/-!
# Numbers that are whole texts

`parse?` reads a text that is one number and nothing else, or one of the words for an infinity and for
what is not a number. It cuts the text at its marks and asks whether the pieces are digits. It accepts
every spelling of a numeral and gives its value (`parse?_spelling`), and a spelling stays one when the
points at its end are dropped (`spelling_without_point`).
-/

namespace ScratchPage.Numeral
set_option autoImplicit false

/-- The bits of the value that is not a number. -/
def notANumber : Float := Float.ofBits 0x7FF8000000000000

/-- The digits before the point and those behind it; there is at least one. -/
def parseMantissa? (cs : List Char) : Option (List Char × List Char) :=
  let whole := cs.takeWhile (· ≠ '.')
  let fraction := cs.drop (whole.length + 1)
  if (whole ++ fraction).all Char.isDigit && !(whole ++ fraction).isEmpty then some (whole, fraction) else none

/-- What follows the mantissa: nothing, or a mark with a signed integer. -/
def parseExponent? : List Char → Option Int
  | [] => some 0
  | _ :: rest =>
    let (negative, ds) := sign rest
    if ds.all Char.isDigit && !ds.isEmpty then
      some (if negative then -(Decimal.valueOf ds : Int) else Decimal.valueOf ds)
    else none

/-- An unsigned decimal, cut at the mark of its exponent. -/
def parseDecimal? (negative : Bool) (cs : List Char) : Option Float :=
  let mantissa := cs.takeWhile fun c => c ≠ 'e' && c ≠ 'E'
  match parseMantissa? mantissa, parseExponent? (cs.drop mantissa.length) with
  | some (whole, fraction), some exponent => some (toFloat ⟨negative, whole, fraction, exponent⟩)
  | _, _ => none

/-- The number that the whole text is. The words are read in either case. -/
def parse? (cs : List Char) : Option Float :=
  let (negative, body) := sign cs
  let word := body.map Char.toLower
  if word = ['n', 'a', 'n'] then some notANumber
  else if word = ['i', 'n', 'f'] ∨ word = ['i', 'n', 'f', 'i', 'n', 'i', 't', 'y'] then
    some (Binary.ofMagnitude negative Binary.infinityBits)
  else parseDecimal? negative body

/-! ## Spellings are read -/

theorem takeWhile_append_of_head {α : Type} {p : α → Bool} {front rest : List α} (all : ∀ a ∈ front, p a = true)
    (ends : ∀ a ∈ rest.head?, p a = false) : (front ++ rest).takeWhile p = front := by
  rw [List.takeWhile_append_of_pos all]
  cases rest with
  | nil => simp
  | cons a rest => simp [ends a rfl]

theorem ne_of_isDigit {c d : Char} (isDigit : c.isDigit = true) (other : d.isDigit = false) : c ≠ d := by
  rintro rfl
  simp [isDigit] at other

/-- The mantissa of a spelling is read part by part. -/
theorem parseMantissa?_spelling {whole : List Char} {f : Option (List Char)} (all : ∀ c ∈ whole, c.isDigit = true)
    (digits : ∀ ds ∈ f, ∀ c ∈ ds, c.isDigit = true) (given : whole ≠ [] ∨ ∃ ds ∈ f, ds ≠ []) :
    parseMantissa? (whole ++ Spelling.pointText f) = some (whole, f.getD []) := by
  have front : (whole ++ Spelling.pointText f).takeWhile (· ≠ '.') = whole := by
    refine takeWhile_append_of_head (fun c mem => by simpa using ne_of_isDigit (all c mem) rfl) ?_
    cases f <;> simp [Spelling.pointText]
  have behind : (whole ++ Spelling.pointText f).drop (whole.length + 1) = f.getD [] := by
    cases f <;> simp [Spelling.pointText]
  have numbers : (whole ++ f.getD []).all Char.isDigit = true := by
    cases f <;> simp_all
  have nonempty : (whole ++ f.getD []).isEmpty = false := by
    cases f <;> simp_all [or_iff_not_imp_left]
  simp only [parseMantissa?]
  simp only [front, behind, numbers, nonempty]
  rfl

theorem parseExponent?_spelling (p : Option Power) :
    parseExponent? (Spelling.powerText p) = some ((p.map Power.value).getD 0) := by
  cases p with
  | none => rfl
  | some p =>
    obtain ⟨mark, s, ds, isMark, isSign, given, all⟩ := p
    have leads : ∀ c ∈ ds.head?, c ≠ '+' ∧ c ≠ '-' := fun c mem => not_sign_of_isDigit (all c (List.mem_of_head? mem))
    have numbers : ds.all Char.isDigit = true := by simpa using all
    simp [Spelling.powerText, Power.text, parseExponent?, sign_append isSign leads, numbers, given, Power.value]

/-- Each character before the exponent is a digit or the point. -/
theorem mem_mantissa_chars {whole : List Char} {f : Option (List Char)} (all : ∀ c ∈ whole, c.isDigit = true)
    (digits : ∀ ds ∈ f, ∀ c ∈ ds, c.isDigit = true) {c : Char} (mem : c ∈ whole ++ Spelling.pointText f) :
    c.isDigit = true ∨ c = '.' := by
  rcases List.mem_append.1 mem with inside | inside
  · exact .inl (all c inside)
  · cases f with
    | none => cases inside
    | some ds =>
      rcases List.mem_cons.1 inside with rfl | behind
      · exact .inr rfl
      · exact .inl (digits ds rfl c behind)

/-- A spelling is read as the decimal that it spells. -/
theorem parseDecimal?_spelling (negative : Bool) {whole : List Char} {f : Option (List Char)}
    (all : ∀ c ∈ whole, c.isDigit = true) (digits : ∀ ds ∈ f, ∀ c ∈ ds, c.isDigit = true)
    (given : whole ≠ [] ∨ ∃ ds ∈ f, ds ≠ []) (p : Option Power) :
    parseDecimal? negative (whole ++ (Spelling.pointText f ++ Spelling.powerText p)) =
      some (toFloat ⟨negative, whole, f.getD [], (p.map Power.value).getD 0⟩) := by
  have front : (whole ++ Spelling.pointText f ++ Spelling.powerText p).takeWhile (fun c => c ≠ 'e' && c ≠ 'E') =
      whole ++ Spelling.pointText f := by
    refine takeWhile_append_of_head (fun c mem => ?_) ?_
    · rcases mem_mantissa_chars all digits mem with isDigit | rfl
      · simpa using ⟨ne_of_isDigit isDigit rfl, ne_of_isDigit isDigit rfl⟩
      · rfl
    · cases p with
      | none => simp [Spelling.powerText]
      | some p => obtain ⟨mark, s, ds, rfl | rfl, -, -⟩ := p <;> simp [Spelling.powerText, Power.text]
  rw [← List.append_assoc]
  simp only [parseDecimal?]
  rw [front, List.drop_left, parseMantissa?_spelling all digits given, parseExponent?_spelling]

/-- A spelling is read as the number that it spells. -/
theorem parse?_spelling (s : Spelling) : parse? s.text = some s.numeral.toFloat := by
  obtain ⟨sgn, whole, f, p, isSign, all, fraction, given⟩ := s
  obtain ⟨c, head, isFirst⟩ := head_mantissa all given (Spelling.powerText p)
  have leads := not_sign_of_head head isFirst
  -- No word for an infinity or for what is not a number begins with a digit or a point.
  have lower : c.toLower = c := by
    rcases isFirst with isDigit | rfl
    · have listed := Grammar.mem_digits_iff.2 isDigit
      fin_cases listed <;> rfl
    · rfl
  have notWord (word : List Char) (letter : Char) (other : ¬ (letter.isDigit = true ∨ letter = '.')) :
      (whole ++ (Spelling.pointText f ++ Spelling.powerText p)).map Char.toLower ≠ letter :: word := by
    intro same
    have front := congrArg List.head? same
    rw [List.head?_map, head, Option.map_some, lower, List.head?_cons, Option.some.injEq] at front
    exact other (front ▸ isFirst)
  rw [parse?, Spelling.text, sign_append isSign leads]
  simp only [notWord _ 'n' (by decide), notWord _ 'i' (by decide), or_self, if_false]
  exact parseDecimal?_spelling _ all fraction given p

/-! ## The points at the end -/

theorem rdropWhile_of_digits (front : List Char) {ds : List Char} (given : ds ≠ [])
    (all : ∀ c ∈ ds, c.isDigit = true) : (front ++ ds).rdropWhile (· == '.') = front ++ ds := by
  rw [List.rdropWhile_eq_self_iff]
  intro nonempty
  rw [List.getLast_append_of_ne_nil nonempty given]
  simpa using ne_of_isDigit (all _ (List.getLast_mem given)) rfl

/-- Without the points at its end a spelling spells the same numeral. -/
theorem spelling_without_point (s : Spelling) :
    ∃ t : Spelling, s.text.rdropWhile (· == '.') = t.text ∧ t.numeral = s.numeral := by
  obtain ⟨sgn, whole, f, p, isSign, all, fraction, given⟩ := s
  -- Only a point without digits behind it and without an exponent stands at the end.
  by_cases bare : f = some [] ∧ p = none
  · obtain ⟨rfl, rfl⟩ := bare
    have whole_ne : whole ≠ [] := given.resolve_right (by simp)
    refine ⟨⟨sgn, whole, none, none, isSign, all, by simp, .inl whole_ne⟩, ?_, rfl⟩
    simp only [Spelling.text, Spelling.pointText, Spelling.powerText, List.append_nil, ← List.append_assoc]
    rw [List.rdropWhile_concat_pos _ _ _ rfl]
    exact rdropWhile_of_digits sgn whole_ne all
  · refine ⟨⟨sgn, whole, f, p, isSign, all, fraction, given⟩, ?_, rfl⟩
    obtain ⟨front, ds, nonempty, digits, text⟩ : ∃ front ds, ds ≠ [] ∧ (∀ c ∈ ds, c.isDigit = true) ∧
        (Spelling.mk sgn whole f p isSign all fraction given).text = front ++ ds := by
      cases p with
      | some p =>
        exact ⟨sgn ++ (whole ++ (Spelling.pointText f ++ p.mark :: p.sign)), p.digits, p.someDigits.1,
          p.someDigits.2, by simp [Spelling.text, Spelling.powerText, Power.text]⟩
      | none =>
        cases f with
        | some ds =>
          exact ⟨sgn ++ (whole ++ ['.']), ds, by simpa using bare, fraction ds rfl,
            by simp [Spelling.text, Spelling.pointText, Spelling.powerText]⟩
        | none =>
          exact ⟨sgn, whole, given.resolve_right (by simp), all,
            by simp [Spelling.text, Spelling.pointText, Spelling.powerText]⟩
    rw [text]
    exact rdropWhile_of_digits front nonempty digits

/-- A numeral without the points at its end is read as the number that it spells. -/
theorem parse?_without_point (s : Spelling) : parse? (s.text.rdropWhile (· == '.')) = some s.numeral.toFloat := by
  obtain ⟨t, text, same⟩ := spelling_without_point s
  rw [text, parse?_spelling, same]

end ScratchPage.Numeral
