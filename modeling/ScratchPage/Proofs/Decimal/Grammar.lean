import Mathlib.Computability.RegularExpressions
import Mathlib.Data.List.TakeDrop
import Mathlib.Data.List.TakeWhile
import ScratchPage.Decimal.Numeral

/-!
# The grammar of numerals

A numeral is an optional sign, digits with an optional point, and an optional exponent: the regular
expression `Grammar.numeral`. The texts it matches are the spellings of numerals, part by part
(`mem_numeral`). The scanner takes the longest of them at the start of a text: what it takes is a
spelling (`scan?_eq_some`), and it takes no less than any spelling that the text starts with
(`scan?_spelling`).
-/

namespace ScratchPage.Numeral
set_option autoImplicit false

namespace Grammar

open RegularExpression

/-- One of some characters. -/
def oneOf (chars : List Char) : RegularExpression Char := (chars.map char).foldr (· + ·) 0

/-- What the expression matches, or nothing. -/
def maybe (r : RegularExpression Char) : RegularExpression Char := r + 1

def digit : RegularExpression Char := oneOf ['0', '1', '2', '3', '4', '5', '6', '7', '8', '9']

/-- One digit or more. -/
def someDigits : RegularExpression Char := digit * digit.star

/-- An optional sign. -/
def signed : RegularExpression Char := maybe (oneOf ['+', '-'])

/-- Digits with an optional point among them or behind them. -/
def mantissa : RegularExpression Char :=
  someDigits * maybe (char '.' * digit.star) + char '.' * someDigits

/-- An exponent of ten. -/
def power : RegularExpression Char := oneOf ['e', 'E'] * signed * someDigits

/-- A numeral. -/
def numeral : RegularExpression Char := signed * mantissa * maybe power

theorem mem_oneOf {chars text : List Char} : text ∈ (oneOf chars).matches' ↔ ∃ c ∈ chars, text = [c] := by
  induction chars with
  | nil => simp [oneOf, matches'_zero, Language.notMem_zero]
  | cons c chars ih =>
    have first : text ∈ (oneOf (c :: chars)).matches' ↔ text = [c] ∨ text ∈ (oneOf chars).matches' := Iff.rfl
    simp [first, ih]

theorem mem_maybe {r : RegularExpression Char} {text : List Char} :
    text ∈ (maybe r).matches' ↔ text = [] ∨ text ∈ r.matches' := by
  rw [maybe, matches'_add, Language.mem_add, matches'_epsilon, Language.mem_one, or_comm]

theorem mem_digits_iff {c : Char} :
    c ∈ ['0', '1', '2', '3', '4', '5', '6', '7', '8', '9'] ↔ c.isDigit = true := by
  have listed : ∀ n < 10, Char.ofNat (n + 48) ∈ ['0', '1', '2', '3', '4', '5', '6', '7', '8', '9'] := by decide
  constructor
  · intro mem
    simp only [List.mem_cons, List.not_mem_nil, or_false] at mem
    rcases mem with rfl | rfl | rfl | rfl | rfl | rfl | rfl | rfl | rfl | rfl <;> rfl
  · intro isDigit
    simp only [Char.isDigit, Bool.and_eq_true, decide_eq_true_eq, UInt32.le_iff_toNat_le] at isDigit
    have low : 48 ≤ c.toNat := isDigit.1
    have high : c.toNat ≤ 57 := isDigit.2
    have back := listed (c.toNat - 48) (by omega)
    rwa [Nat.sub_add_cancel low, Char.ofNat_toNat] at back

/-- A repeated digit matches the texts that have digits only. -/
theorem mem_star {text : List Char} : text ∈ digit.star.matches' ↔ ∀ c ∈ text, c.isDigit = true := by
  rw [matches'_star, Language.mem_kstar]
  constructor
  · rintro ⟨pieces, rfl, each⟩ c mem
    obtain ⟨piece, isPiece, inside⟩ := List.mem_flatten.1 mem
    obtain ⟨d, listed, rfl⟩ := mem_oneOf.1 (each piece isPiece)
    rw [List.mem_singleton.1 inside]
    exact mem_digits_iff.1 listed
  · intro all
    refine ⟨text.map fun c => [c], by simp [← List.flatMap_def], fun piece mem => ?_⟩
    obtain ⟨c, inside, rfl⟩ := List.mem_map.1 mem
    exact mem_oneOf.2 ⟨c, mem_digits_iff.2 (all c inside), rfl⟩

/-- Some digits are at least one. -/
theorem mem_someDigits {text : List Char} :
    text ∈ someDigits.matches' ↔ text ≠ [] ∧ ∀ c ∈ text, c.isDigit = true := by
  rw [someDigits, matches'_mul, Language.mem_mul]
  constructor
  · rintro ⟨first, isFirst, rest, isRest, rfl⟩
    obtain ⟨c, listed, rfl⟩ := mem_oneOf.1 isFirst
    exact ⟨by simp, List.forall_mem_cons.2 ⟨mem_digits_iff.1 listed, mem_star.1 isRest⟩⟩
  · rintro ⟨given, all⟩
    obtain ⟨c, rest, rfl⟩ := List.exists_cons_of_ne_nil given
    rw [List.forall_mem_cons] at all
    exact ⟨[c], mem_oneOf.2 ⟨c, mem_digits_iff.2 all.1, rfl⟩, rest, mem_star.2 all.2, rfl⟩

theorem mem_signed {text : List Char} : text ∈ signed.matches' ↔ text ∈ [[], ['+'], ['-']] := by
  simp [signed, mem_maybe, mem_oneOf]

end Grammar

/-! ## Spellings -/

/-- An exponent as it is written. -/
structure Power where
  mark : Char
  sign : List Char
  digits : List Char
  isMark : mark = 'e' ∨ mark = 'E'
  isSign : sign ∈ [[], ['+'], ['-']]
  someDigits : digits ≠ [] ∧ ∀ c ∈ digits, c.isDigit = true

def Power.text (p : Power) : List Char := p.mark :: p.sign ++ p.digits

def Power.value (p : Power) : Int :=
  if p.sign = ['-'] then -(Decimal.valueOf p.digits : Int) else Decimal.valueOf p.digits

/-- A numeral as it is written. The fraction is what follows the point, if there is one. -/
structure Spelling where
  sign : List Char
  whole : List Char
  fraction : Option (List Char)
  power : Option Power
  isSign : sign ∈ [[], ['+'], ['-']]
  wholeDigits : ∀ c ∈ whole, c.isDigit = true
  fractionDigits : ∀ f ∈ fraction, ∀ c ∈ f, c.isDigit = true
  someDigits : whole ≠ [] ∨ ∃ f ∈ fraction, f ≠ []

namespace Spelling

/-- The point with what follows it. -/
def pointText : Option (List Char) → List Char
  | none => []
  | some f => '.' :: f

def powerText : Option Power → List Char
  | none => []
  | some p => p.text

def text (s : Spelling) : List Char := s.sign ++ (s.whole ++ (pointText s.fraction ++ powerText s.power))

/-- The numeral that is spelled. -/
def numeral (s : Spelling) : Numeral :=
  ⟨decide (s.sign = ['-']), s.whole, s.fraction.getD [], (s.power.map Power.value).getD 0⟩

end Spelling

/-- The grammar of exponents matches the texts of powers. -/
theorem mem_power {text : List Char} : text ∈ Grammar.power.matches' ↔ ∃ p : Power, p.text = text := by
  rw [Grammar.power, RegularExpression.matches'_mul, RegularExpression.matches'_mul, Language.mem_mul]
  constructor
  · rintro ⟨front, isFront, digits, isDigits, rfl⟩
    obtain ⟨mark, isMark, sign, isSign, rfl⟩ := Language.mem_mul.1 isFront
    obtain ⟨c, listed, rfl⟩ := Grammar.mem_oneOf.1 isMark
    exact ⟨⟨c, sign, digits, by simpa using listed, Grammar.mem_signed.1 isSign, Grammar.mem_someDigits.1 isDigits⟩,
      rfl⟩
  · rintro ⟨⟨mark, sign, digits, isMark, isSign, someDigits⟩, rfl⟩
    refine ⟨mark :: sign, ?_, digits, Grammar.mem_someDigits.2 someDigits, rfl⟩
    exact Language.mem_mul.2 ⟨[mark], Grammar.mem_oneOf.2 ⟨mark, by simpa using isMark, rfl⟩, sign,
      Grammar.mem_signed.2 isSign, rfl⟩

/-- What stands between the sign and the exponent. -/
theorem mem_mantissa {text : List Char} : text ∈ Grammar.mantissa.matches' ↔
    ∃ (whole : List Char) (fraction : Option (List Char)), (∀ c ∈ whole, c.isDigit = true) ∧
      (∀ f ∈ fraction, ∀ c ∈ f, c.isDigit = true) ∧ (whole ≠ [] ∨ ∃ f ∈ fraction, f ≠ []) ∧
      whole ++ Spelling.pointText fraction = text := by
  rw [Grammar.mantissa, RegularExpression.matches'_add, Language.mem_add]
  simp only [RegularExpression.matches'_mul, Language.mem_mul, Grammar.mem_someDigits, Grammar.mem_maybe,
    Grammar.mem_star, RegularExpression.matches'_char]
  constructor
  · rintro (⟨whole, ⟨given, all⟩, tail, rfl | ⟨_, ⟨rfl⟩, f, digits, rfl⟩, rfl⟩ | ⟨_, ⟨rfl⟩, f, ⟨given, digits⟩, rfl⟩)
    · exact ⟨whole, none, all, by simp, .inl given, rfl⟩
    · exact ⟨whole, some f, all, by simpa using digits, .inl given, rfl⟩
    · exact ⟨[], some f, by simp, by simpa using digits, .inr ⟨f, rfl, given⟩, rfl⟩
  · rintro ⟨whole, fraction, all, digits, given, rfl⟩
    by_cases empty : whole = []
    · subst empty
      obtain ⟨f, rfl, nonempty⟩ := given.resolve_left (by simp)
      exact .inr ⟨['.'], rfl, f, ⟨nonempty, digits f rfl⟩, rfl⟩
    · refine .inl ⟨whole, ⟨empty, all⟩, Spelling.pointText fraction, ?_, rfl⟩
      cases fraction with
      | none => exact .inl rfl
      | some f => exact .inr ⟨['.'], rfl, f, digits f rfl, rfl⟩

/-- The grammar matches the spellings of numerals and nothing else. -/
theorem mem_numeral {text : List Char} :
    text ∈ Grammar.numeral.matches' ↔ ∃ s : Spelling, s.text = text := by
  rw [Grammar.numeral, RegularExpression.matches'_mul, RegularExpression.matches'_mul, Language.mem_mul]
  constructor
  · rintro ⟨front, isFront, tail, isTail, rfl⟩
    obtain ⟨sign, isSign, body, isBody, rfl⟩ := Language.mem_mul.1 isFront
    obtain ⟨whole, fraction, all, digits, given, rfl⟩ := mem_mantissa.1 isBody
    have spelled (power : Option Power) : ∃ s : Spelling, s.text =
        sign ++ (whole ++ Spelling.pointText fraction) ++ Spelling.powerText power :=
      ⟨⟨sign, whole, fraction, power, Grammar.mem_signed.1 isSign, all, digits, given⟩, by simp [Spelling.text]⟩
    rcases Grammar.mem_maybe.1 isTail with rfl | isPower
    · exact spelled none
    · obtain ⟨power, rfl⟩ := mem_power.1 isPower
      exact spelled (some power)
  · rintro ⟨⟨sign, whole, fraction, power, isSign, all, digits, given⟩, rfl⟩
    refine ⟨sign ++ (whole ++ Spelling.pointText fraction), ?_, Spelling.powerText power, ?_, by simp [Spelling.text]⟩
    · exact Language.mem_mul.2 ⟨sign, Grammar.mem_signed.2 isSign, _,
        mem_mantissa.2 ⟨whole, fraction, all, digits, given, rfl⟩, rfl⟩
    · rw [Grammar.mem_maybe]
      cases power with
      | none => exact .inl rfl
      | some power => exact .inr (mem_power.2 ⟨power, rfl⟩)

/-! ## What the scanner takes -/

theorem digits_eq (cs : List Char) : digits cs = (cs.takeWhile Char.isDigit, cs.dropWhile Char.isDigit) :=
  List.span_eq_takeWhile_dropWhile _ cs

theorem digits_split (cs : List Char) :
    cs = (digits cs).1 ++ (digits cs).2 ∧ ∀ c ∈ (digits cs).1, c.isDigit = true := by
  rw [digits_eq]
  exact ⟨List.takeWhile_append_dropWhile.symm, fun c mem => List.mem_takeWhile_imp mem⟩

theorem sign_split (cs : List Char) :
    ∃ s ∈ [[], ['+'], ['-']], cs = s ++ (sign cs).2 ∧ (sign cs).1 = decide (s = ['-']) := by
  unfold sign
  split
  · exact ⟨['-'], by simp, rfl, rfl⟩
  · exact ⟨['+'], by simp, rfl, rfl⟩
  · exact ⟨[], by simp, rfl, rfl⟩

/-- The reader of fractions takes the spelling of a fraction, which may be missing, and leaves the rest. -/
theorem fraction_split (cs : List Char) :
    ∃ f : Option (List Char), (∀ ds ∈ f, ∀ c ∈ ds, c.isDigit = true) ∧
      cs = Spelling.pointText f ++ (fractionPart cs).2 ∧ (fractionPart cs).1 = f.getD [] := by
  unfold fractionPart
  split
  · next rest =>
    obtain ⟨whole, all⟩ := digits_split rest
    exact ⟨some (digits rest).1, by simpa using all, congrArg (List.cons '.') whole, rfl⟩
  · exact ⟨none, by simp, rfl, rfl⟩

/-- The reader of exponents takes the spelling of a power, which may be missing, and leaves the rest. -/
theorem exponent_split (cs : List Char) :
    ∃ p : Option Power, cs = Spelling.powerText p ++ (exponentPart cs).2 ∧
      (exponentPart cs).1 = (p.map Power.value).getD 0 := by
  cases cs with
  | nil => exact ⟨none, rfl, rfl⟩
  | cons mark rest =>
    obtain ⟨s, isSign, afterSign, negative⟩ := sign_split rest
    obtain ⟨afterDigits, all⟩ := digits_split (sign rest).2
    by_cases isMark : mark = 'e' ∨ mark = 'E'
    · by_cases empty : (digits (sign rest).2).1 = []
      · exact ⟨none, by simp [exponentPart, isMark, empty, Spelling.powerText],
          by simp [exponentPart, isMark, empty]⟩
      · refine ⟨some ⟨mark, s, (digits (sign rest).2).1, isMark, isSign, empty, all⟩, ?_, ?_⟩
        · simp only [exponentPart, isMark, List.isEmpty_iff, empty, if_true, if_false, Spelling.powerText, Power.text,
            List.cons_append, List.append_assoc, ← afterDigits, ← afterSign]
        · simp [exponentPart, isMark, empty, Power.value, negative]
    · exact ⟨none, by simp [exponentPart, isMark, Spelling.powerText], by simp [exponentPart, isMark]⟩

/-- What the scanner takes is a spelling of the numeral that it gives. -/
theorem scan?_eq_some {cs rest : List Char} {n : Numeral} (found : scan? cs = some (n, rest)) :
    ∃ s : Spelling, cs = s.text ++ rest ∧ n = s.numeral := by
  obtain ⟨s, isSign, afterSign, negative⟩ := sign_split cs
  obtain ⟨afterWhole, whole⟩ := digits_split (sign cs).2
  obtain ⟨f, fraction, afterPoint, isFraction⟩ := fraction_split (digits (sign cs).2).2
  obtain ⟨p, afterPower, isPower⟩ := exponent_split (fractionPart (digits (sign cs).2).2).2
  simp only [scan?] at found
  split_ifs at found with empty
  obtain ⟨rfl, rfl⟩ := Prod.mk.inj (Option.some.inj found)
  have given : (digits (sign cs).2).1 ≠ [] ∨ ∃ ds ∈ f, ds ≠ [] := by
    rw [isFraction] at empty
    cases f with
    | none => simpa using empty
    | some ds => simpa [or_iff_not_imp_left] using empty
  refine ⟨⟨s, (digits (sign cs).2).1, f, p, isSign, whole, fraction, given⟩, ?_, ?_⟩
  · simp only [Spelling.text, List.append_assoc, ← afterPower, ← afterPoint, ← afterWhole, ← afterSign]
  · simp [Spelling.numeral, negative, isFraction, isPower]

/-! ## How far the scanner goes -/

theorem digits_suffix (cs : List Char) : (digits cs).2 <:+ cs := ⟨_, (digits_split cs).1.symm⟩

theorem fraction_suffix (cs : List Char) : (fractionPart cs).2 <:+ cs := by
  obtain ⟨f, -, split, -⟩ := fraction_split cs
  exact ⟨_, split.symm⟩

theorem exponent_suffix (cs : List Char) : (exponentPart cs).2 <:+ cs := by
  obtain ⟨p, split, -⟩ := exponent_split cs
  exact ⟨_, split.symm⟩

/-- Digits are taken together with the digits that follow them. -/
theorem digits_append {ds : List Char} (all : ∀ c ∈ ds, c.isDigit = true) (rest : List Char) :
    digits (ds ++ rest) = (ds ++ (digits rest).1, (digits rest).2) := by
  simp [digits_eq, List.takeWhile_append_of_pos all, List.dropWhile_append_of_pos all]

theorem digits_of_head {rest : List Char} (ends : ∀ c ∈ rest.head?, c.isDigit = false) :
    digits rest = ([], rest) := by
  cases rest with
  | nil => rfl
  | cons c rest => simp [digits_eq, ends c rfl]

/-- A sign is taken when what follows it does not begin with one. -/
theorem sign_append {s rest : List Char} (isSign : s ∈ [[], ['+'], ['-']])
    (leads : ∀ c ∈ rest.head?, c ≠ '+' ∧ c ≠ '-') : sign (s ++ rest) = (decide (s = ['-']), rest) := by
  simp only [List.mem_cons, List.not_mem_nil, or_false] at isSign
  obtain rfl | rfl | rfl := isSign
  · rw [List.nil_append]
    unfold sign
    split
    · exact absurd rfl (leads '-' rfl).2
    · exact absurd rfl (leads '+' rfl).1
    · rfl
  · rfl
  · rfl

theorem not_sign_of_isDigit {c : Char} (isDigit : c.isDigit = true) : c ≠ '+' ∧ c ≠ '-' := by
  constructor <;> (rintro rfl; cases isDigit)

/-- Digits with a point among them begin with a digit or with the point. -/
theorem head_mantissa {whole : List Char} {f : Option (List Char)} (all : ∀ c ∈ whole, c.isDigit = true)
    (given : whole ≠ [] ∨ ∃ ds ∈ f, ds ≠ []) (rest : List Char) :
    ∃ c, (whole ++ (Spelling.pointText f ++ rest)).head? = some c ∧ (c.isDigit = true ∨ c = '.') := by
  cases whole with
  | nil =>
    obtain ⟨ds, rfl, -⟩ := given.resolve_left (by simp)
    exact ⟨'.', rfl, .inr rfl⟩
  | cons d whole => exact ⟨d, rfl, .inl (all d (by simp))⟩

theorem not_sign_of_head {cs : List Char} {first : Char} (head : cs.head? = some first)
    (begins : first.isDigit = true ∨ first = '.') : ∀ c ∈ cs.head?, c ≠ '+' ∧ c ≠ '-' := by
  rw [head]
  rintro c ⟨rfl⟩
  obtain isDigit | rfl := begins
  · exact not_sign_of_isDigit isDigit
  · decide

theorem not_digit_of_isMark {c : Char} (isMark : c = 'e' ∨ c = 'E') : c.isDigit = false := by
  obtain rfl | rfl := isMark <;> rfl

/-- Behind an exponent the scanner leaves no more than what follows the exponent. -/
theorem exponent_append (p : Option Power) (rest : List Char) :
    (exponentPart (Spelling.powerText p ++ rest)).2 <:+ rest := by
  cases p with
  | none => exact exponent_suffix rest
  | some p =>
    obtain ⟨mark, s, ds, isMark, isSign, given, all⟩ := p
    have leads : ∀ c ∈ (ds ++ rest).head?, c ≠ '+' ∧ c ≠ '-' := by
      obtain ⟨d, more, rfl⟩ := List.exists_cons_of_ne_nil given
      simpa using not_sign_of_isDigit (all d (by simp))
    have left : (exponentPart (mark :: (s ++ (ds ++ rest)))).2 = (digits rest).2 := by
      simp [exponentPart, isMark, sign_append isSign leads, digits_append all, given]
    rw [Spelling.powerText, Power.text, List.cons_append, List.cons_append, List.append_assoc, left]
    exact digits_suffix rest

/-- The same from the point on. -/
theorem fraction_append {f : Option (List Char)} (all : ∀ ds ∈ f, ∀ c ∈ ds, c.isDigit = true) (p : Option Power)
    (rest : List Char) :
    (exponentPart (fractionPart (Spelling.pointText f ++ (Spelling.powerText p ++ rest))).2).2 <:+ rest := by
  cases f with
  | none =>
    cases p with
    | none => exact (exponent_suffix _).trans (fraction_suffix rest)
    | some p =>
      have skipped : fractionPart (Spelling.powerText (some p) ++ rest) =
          ([], Spelling.powerText (some p) ++ rest) := by
        obtain ⟨mark, s, ds, rfl | rfl, -, -⟩ := p <;> rfl
      rw [Spelling.pointText, List.nil_append, skipped]
      exact exponent_append (some p) rest
  | some ds =>
    have taken : (fractionPart ('.' :: (ds ++ (Spelling.powerText p ++ rest)))).2 =
        (digits (Spelling.powerText p ++ rest)).2 := by
      rw [fractionPart, digits_append (all ds rfl)]
    rw [Spelling.pointText, List.cons_append, taken]
    cases p with
    | none => exact (exponent_suffix _).trans (digits_suffix rest)
    | some p =>
      rw [digits_of_head fun c head => ?_]
      · exact exponent_append (some p) rest
      · obtain rfl : p.mark = c := by simpa [Spelling.powerText, Power.text] using head
        exact not_digit_of_isMark p.isMark

/-- The same from the first digit on. -/
theorem whole_append {f : Option (List Char)} (all : ∀ ds ∈ f, ∀ c ∈ ds, c.isDigit = true) (p : Option Power)
    (rest : List Char) :
    (exponentPart (fractionPart (digits
      (Spelling.pointText f ++ (Spelling.powerText p ++ rest))).2).2).2 <:+ rest := by
  by_cases bare : f = none ∧ p = none
  · obtain ⟨rfl, rfl⟩ := bare
    exact ((exponent_suffix _).trans (fraction_suffix _)).trans (digits_suffix rest)
  · rw [digits_of_head fun c head => ?_]
    · exact fraction_append all p rest
    · cases f with
      | some ds =>
        obtain rfl : '.' = c := by simpa [Spelling.pointText] using head
        rfl
      | none =>
        obtain ⟨p, rfl⟩ := Option.ne_none_iff_exists'.1 fun none => bare ⟨rfl, none⟩
        obtain rfl : p.mark = c := by simpa [Spelling.pointText, Spelling.powerText, Power.text] using head
        exact not_digit_of_isMark p.isMark

/-- A text that begins with a spelling is scanned, and no less than the spelling is taken. -/
theorem scan?_spelling (s : Spelling) (rest : List Char) :
    ∃ n left, scan? (s.text ++ rest) = some (n, left) ∧ left <:+ rest := by
  obtain ⟨sgn, whole, f, p, isSign, all, fraction, given⟩ := s
  have body : (Spelling.mk sgn whole f p isSign all fraction given).text ++ rest =
      sgn ++ (whole ++ (Spelling.pointText f ++ (Spelling.powerText p ++ rest))) := by
    simp [Spelling.text]
  obtain ⟨first, head, begins⟩ := head_mantissa all given (Spelling.powerText p ++ rest)
  have leads := not_sign_of_head head begins
  have left := whole_append fraction p rest
  rw [body]
  simp only [scan?, sign_append isSign leads, digits_append all]
  split_ifs with empty
  · -- Without a digit before the point the digits behind it are taken.
    simp only [Bool.and_eq_true, List.isEmpty_iff, List.append_eq_nil_iff] at empty
    obtain ⟨ds, rfl, nonempty⟩ := given.resolve_left (by simp [empty.1.1])
    have point : digits ('.' :: (ds ++ (Spelling.powerText p ++ rest))) =
        ([], '.' :: (ds ++ (Spelling.powerText p ++ rest))) := digits_of_head (by simp)
    have taken := empty.2
    rw [Spelling.pointText, List.cons_append, point, fractionPart, digits_append (fraction ds rfl)] at taken
    simp [nonempty] at taken
  · exact ⟨_, _, rfl, left⟩

/-- The longest beginning of a text that is a numeral. -/
structure IsLongest (taken cs : List Char) : Prop where
  matched : taken ∈ Grammar.numeral.matches'
  starts : taken <+: cs
  longest : ∀ other, other <+: cs → other ∈ Grammar.numeral.matches' → other.length ≤ taken.length

/-- The scanner takes the longest numeral that a text starts with. -/
theorem isLongest_of_scan? {cs rest : List Char} {n : Numeral} (found : scan? cs = some (n, rest)) :
    ∃ s : Spelling, IsLongest s.text cs ∧ n = s.numeral := by
  obtain ⟨s, rfl, rfl⟩ := scan?_eq_some found
  refine ⟨s, ⟨mem_numeral.2 ⟨s, rfl⟩, List.prefix_append _ _, ?_⟩, rfl⟩
  rintro other ⟨behind, split⟩ matched
  obtain ⟨t, rfl⟩ := mem_numeral.1 matched
  obtain ⟨n, left, again, less⟩ := scan?_spelling t behind
  rw [split, found] at again
  obtain ⟨rfl, rfl⟩ := Prod.mk.inj (Option.some.inj again)
  have total := congrArg List.length split
  have shorter := less.length_le
  simp only [List.length_append] at total
  omega

/-- Where the scanner finds nothing, the text starts with no numeral. -/
theorem not_mem_of_scan? {cs : List Char} (lost : scan? cs = none) {taken : List Char} (starts : taken <+: cs) :
    taken ∉ Grammar.numeral.matches' := by
  intro matched
  obtain ⟨behind, rfl⟩ := starts
  obtain ⟨s, rfl⟩ := mem_numeral.1 matched
  obtain ⟨n, left, found, -⟩ := scan?_spelling s behind
  rw [lost] at found
  cases found

theorem IsLongest.eq {taken other cs : List Char} (first : IsLongest taken cs) (second : IsLongest other cs) :
    taken = other := by
  have same : taken.length = other.length :=
    Nat.le_antisymm (second.longest taken first.starts first.matched)
      (first.longest other second.starts second.matched)
  exact (List.prefix_of_prefix_length_le first.starts second.starts same.le).eq_of_length same

end ScratchPage.Numeral
