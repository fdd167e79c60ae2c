import Mathlib.Data.Rat.Lemmas
import Mathlib.Tactic.FieldSimp
import Mathlib.Tactic.Linarith
import ScratchPage.Proofs.Compile.Numeric
import ScratchPage.Proofs.Decimal.Whole
import ScratchPage.Proofs.Lexical.Texture

/-!
# Random numbers with known bounds

Where the bounds of a random number are known only when the page runs, its code is a function of the two
bounds that chooses between two expressions: integers are drawn if both bounds are integers, and other
numbers otherwise. Known bounds make this choice at once. Then the code is the expression that the function
would choose, with the bounds in the places of its parameters (`random_agrees`). Bounds are known exactly
where both slots hold literals that are compiled to finite numbers without an error.
-/

namespace ScratchPage
set_option autoImplicit false

/-! ## Integers among doubles -/

namespace Binary

/-- The exact value of a finite double. -/
def value (f : Float) : ℚ := (if isNegative f then -1 else 1) * (numerator f / denominator f)

/-- The double is an integer. -/
def IsInteger (f : Float) : Prop := ∃ i : ℤ, value f = i

theorem denominator_pos (f : Float) : 0 < denominator f := Nat.pow_pos (by decide)

/-- The denominator divides the numerator exactly for integers. -/
theorem isIntegral_iff {f : Float} : isIntegral f = true ↔ IsInteger f := by
  have positive : (denominator f : ℚ) ≠ 0 := by exact_mod_cast (denominator_pos f).ne'
  rw [isIntegral, beq_iff_eq, ← Nat.dvd_iff_mod_eq_zero, IsInteger, value]
  constructor
  · rintro ⟨k, multiple⟩
    refine ⟨(if isNegative f then -1 else 1) * k, ?_⟩
    rw [multiple]
    push_cast
    field_simp
  · rintro ⟨i, whole⟩
    -- The sign moves to the integer, so that only the magnitude is divided.
    have magnitude : (numerator f : ℚ) = (if isNegative f then -i else i : ℤ) * denominator f := by
      split_ifs at whole ⊢ <;> field_simp at whole <;> push_cast <;> linarith
    have divides : (denominator f : ℤ) ∣ numerator f := by
      refine ⟨if isNegative f then -i else i, ?_⟩
      rw [mul_comm]
      exact_mod_cast magnitude
    exact_mod_cast divides

instance (f : Float) : Decidable (IsInteger f) := decidable_of_iff _ isIntegral_iff

end Binary

/-! ## Functions of two bounds -/

/-- Code for a function of two parameters that chooses between two expressions. -/
structure Chooser where
  low : String
  high : String
  condition : String
  met : String
  unmet : String

namespace Chooser

def text (chooser : Chooser) : String :=
  "((" ++ chooser.low ++ ", " ++ chooser.high ++ ") => (" ++ chooser.condition ++ ") ? " ++ chooser.met ++
    " : " ++ chooser.unmet ++ ")"

/-- Puts values in the places of the words that name them; `word` is what was read of the current word. -/
def substitute (values : List (List Char × List Char)) (word : List Char) : List Char → List Char
  | [] => (values.lookup word).getD word
  | c :: rest =>
    if Lexical.isWordChar c then substitute values (word ++ [c]) rest
    else (values.lookup word).getD word ++ c :: substitute values [] rest

/-- The expression that is chosen, with the arguments in the places of the parameters. -/
def chosen (chooser : Chooser) (holds : Bool) (low high : String) : String :=
  String.ofList (substitute [(chooser.low.toList, low.toList), (chooser.high.toList, high.toList)] []
    (if holds then chooser.met else chooser.unmet).toList)

end Chooser

/-- The choice between integers and other numbers; its condition says that both bounds are integers. -/
def randomChooser : Chooser where
  low := "from"
  high := "to"
  condition := "Number.isInteger(from) && Number.isInteger(to)"
  met := "Math.floor(Math.random() * (to - from + 1) + from)"
  unmet := "Math.random() * (to - from) + from"

/-- The second text is the first, perhaps in parentheses. -/
def SameUpToParentheses (inner text : String) : Prop := text = inner ∨ text = "(" ++ inner ++ ")"

namespace Operand

/-- A random number whose bounds are known. -/
def hasKnownBounds : Operand → Bool
  | .randomInteger _ _ => true
  | .randomReal _ _ => true
  | _ => Bool.false

theorem text_randomBetween (low high : Operand) :
    (randomBetween low high).code.text =
      randomChooser.text ++ "(" ++ low.code.text ++ ", " ++ high.code.text ++ ")" := by
  have function : randomFunction.text = randomChooser.text := by decide +kernel
  simp only [code, Lexical.Code.text_append, Lexical.Code.text_singleton, Fragment.text, function]

theorem text_randomInteger (low high : Float) :
    (randomInteger low high).code.text =
      randomChooser.chosen true (number low).code.text (number high).code.text := by
  apply String.toList_inj.1
  simp only [code, Code.number, Lexical.Code.text_append, Lexical.Code.text_singleton, Fragment.text,
    String.toList_append, List.append_assoc, Chooser.chosen, String.toList_ofList]
  rfl

/-- Code for real bounds is what the function chooses, in parentheses. -/
theorem text_randomReal (low high : Float) :
    (randomReal low high).code.text =
      "(" ++ randomChooser.chosen Bool.false (number low).code.text (number high).code.text ++ ")" := by
  -- The bounds are arbitrary texts, so the chosen expression is put in a right-nested form before the
  -- closing parenthesis is appended to it.
  have chosen : (randomChooser.chosen Bool.false (number low).code.text (number high).code.text).toList =
      "Math.random() * (".toList ++ ((number high).code.text.toList ++ (" - ".toList ++
        ((number low).code.text.toList ++ (") + ".toList ++ (number low).code.text.toList)))) := by
    rw [Chooser.chosen, String.toList_ofList]
    rfl
  apply String.toList_inj.1
  rw [String.toList_append, String.toList_append, chosen]
  simp only [code, Code.number, Lexical.Code.text_append, Lexical.Code.text_singleton, Fragment.text,
    String.toList_append, List.append_assoc]
  rfl

end Operand

namespace Compile

/-! ## Known bounds -/

/-- A slot that needs a number holds a literal, and the literal is compiled to a finite number without an
error. -/
structure IsBound (sub : BlockId → Outcome Operand) (owner : Block) (slot : String) (x : Float) : Prop where
  held : ∃ kind raw shadow, owner.input? slot = some ⟨.literal kind raw, shadow⟩
  given : (input sub owner slot .numeric).result = .ok (.number x)
  quiet : (input sub owner slot .numeric).Quiet
  finite : x.isNaN = false ∧ x.isInf = false

section

variable {sub : BlockId → Outcome Operand} {owner : Block} {slot : String}

theorem literal_quiet {kind : LiteralKind} {raw : String} (number : isNumber kind raw = true) :
    (literal owner slot kind raw .numeric : Outcome Operand).Quiet := by
  rw [literal, if_pos number]
  exact fun _ raised => absurd raised List.not_mem_nil

/-- A literal number that is finite is a bound. -/
theorem isBound_of_literal {kind : LiteralKind} {raw : String} {shadow : Option Payload}
    (held : owner.input? slot = some ⟨.literal kind raw, shadow⟩) (number : isNumber kind raw = true)
    (finite : (Numeral.leadingNumber raw).isNaN = false ∧ (Numeral.leadingNumber raw).isInf = false) :
    IsBound sub owner slot (Numeral.leadingNumber raw) := by
  have same : input sub owner slot .numeric = literal owner slot kind raw .numeric := by
    rw [input, held]
    rfl
  refine ⟨⟨kind, raw, shadow, held⟩, ?_, ?_, finite⟩
  · rw [same]
    exact literal_number_iff.2 ⟨number, rfl⟩
  · rw [same]
    exact literal_quiet number

/-- The compiler knows a bound exactly where a numeric slot would be compiled to one. -/
theorem constant?_eq_some_iff {x : Float} :
    constant? (owner.input? slot) = some x ↔ IsBound sub owner slot x := by
  constructor
  · intro known
    cases held : owner.input? slot with
    | none => simp [held, constant?] at known
    | some content =>
      obtain ⟨payload, shadow⟩ := content
      cases payload with
      | literal kind raw =>
        simp only [held, constant?, Option.ite_none_right_eq_some, Bool.and_eq_true, Bool.not_eq_true',
          Option.some.injEq] at known
        obtain ⟨⟨⟨number, isNumber⟩, finite⟩, rfl⟩ := known
        exact isBound_of_literal held number ⟨isNumber, finite⟩
      | empty | «variable» | list | block => simp [held, constant?] at known
  -- That no error is raised is not needed here: a literal that raises one is compiled to a text.
  · rintro ⟨⟨kind, raw, shadow, held⟩, given, -, finite⟩
    rw [input, held] at given
    obtain ⟨number, rfl⟩ := literal_number_iff.1 given
    simp only [held, constant?, number, finite, Bool.not_false, Bool.and_self, if_true]

/-- Bounds that are known at compile time. -/
def HasBounds (sub : BlockId → Outcome Operand) (owner : Block) : Prop :=
  ∃ low high, IsBound sub owner "FROM" low ∧ IsBound sub owner "TO" high

/-- Known bounds choose the code at compile time. -/
theorem random_of_known {low high : Float} (lower : IsBound sub owner "FROM" low)
    (upper : IsBound sub owner "TO" high) :
    random sub owner =
      pure (if Binary.IsInteger low ∧ Binary.IsInteger high then .randomInteger low high
        else .randomReal low high) := by
  rw [random, constant?_eq_some_iff.2 lower, constant?_eq_some_iff.2 upper]
  simp only [Bool.and_eq_true, Binary.isIntegral_iff]
  split <;> rfl

/-- Bounds that are not known are compiled as any other operands. -/
theorem random_of_unknown (unknown : ¬ HasBounds sub owner) :
    random sub owner = (do
      let low ← input sub owner "FROM" .numeric
      let high ← input sub owner "TO" .numeric
      return .randomBetween low high) := by
  rw [random]
  split
  case h_1 low high lower upper =>
    exact absurd ⟨low, high, constant?_eq_some_iff.1 lower, constant?_eq_some_iff.1 upper⟩ unknown
  case h_2 => rfl

/-- The operands of such a random number are those of its slots. -/
theorem randomBetween_of_unknown (unknown : ¬ HasBounds sub owner) {operand : Operand}
    (done : (random sub owner).result = .ok operand) :
    ∃ low high, (input sub owner "FROM" .numeric).result = .ok low ∧
      (input sub owner "TO" .numeric).result = .ok high ∧ operand = .randomBetween low high := by
  rw [random_of_unknown unknown] at done
  obtain ⟨low, lower, done⟩ := Outcome.bind_eq_ok.1 done
  obtain ⟨high, upper, last⟩ := Outcome.bind_eq_ok.1 done
  cases last
  exact ⟨low, high, lower, upper, rfl⟩

/-- Code for known bounds is what the function of two bounds chooses for them. -/
theorem text_of_known (low high : Float) :
    SameUpToParentheses
      (randomChooser.chosen (decide (Binary.IsInteger low ∧ Binary.IsInteger high))
        (Operand.number low).code.text (Operand.number high).code.text)
      (if Binary.IsInteger low ∧ Binary.IsInteger high then Operand.randomInteger low high
        else .randomReal low high).code.text := by
  by_cases integers : Binary.IsInteger low ∧ Binary.IsInteger high
  · rw [if_pos integers, decide_eq_true integers]
    exact .inl (Operand.text_randomInteger low high)
  · rw [if_neg integers, decide_eq_false integers]
    exact .inr (Operand.text_randomReal low high)

/-- A random number has known bounds exactly where both slots hold literals that are compiled to finite
numbers without an error. Its code is then the expression that the function of two bounds chooses, with the
code of these numbers in the places of the parameters and perhaps in parentheses; nothing is raised. With
other bounds its code is that function, applied to the operands of the slots. -/
theorem random_agrees (sub : BlockId → Outcome Operand) (owner : Block) :
    ((∃ operand, (random sub owner).result = .ok operand ∧ operand.hasKnownBounds = true) ↔
      HasBounds sub owner) ∧
    (∀ low high, IsBound sub owner "FROM" low → IsBound sub owner "TO" high →
      ∃ operand, random sub owner = pure operand ∧
        SameUpToParentheses
          (randomChooser.chosen (decide (Binary.IsInteger low ∧ Binary.IsInteger high))
            (Operand.number low).code.text (Operand.number high).code.text)
          operand.code.text) ∧
    ∀ operand, (random sub owner).result = .ok operand → operand.hasKnownBounds = false →
      ∃ low high, (input sub owner "FROM" .numeric).result = .ok low ∧
        (input sub owner "TO" .numeric).result = .ok high ∧
        operand.code.text = randomChooser.text ++ "(" ++ low.code.text ++ ", " ++ high.code.text ++ ")" := by
  refine ⟨⟨?_, ?_⟩, fun low high lower upper => ⟨_, random_of_known lower upper, text_of_known low high⟩, ?_⟩
  · rintro ⟨operand, done, known⟩
    by_contra unknown
    obtain ⟨low, high, -, -, rfl⟩ := randomBetween_of_unknown unknown done
    cases known
  · rintro ⟨low, high, lower, upper⟩
    refine ⟨_, congrArg Outcome.result (random_of_known lower upper), ?_⟩
    split <;> rfl
  · intro operand done unknown
    by_cases bounds : HasBounds sub owner
    · obtain ⟨low, high, lower, upper⟩ := bounds
      rw [random_of_known lower upper] at done
      cases done
      split at unknown <;> cases unknown
    · obtain ⟨low, high, lower, upper, rfl⟩ := randomBetween_of_unknown bounds done
      exact ⟨low, high, lower, upper, Operand.text_randomBetween low high⟩

/-- A number between a half and two; the upper bound is a text. -/
def halfToTwo : Block where
  id := ⟨"pick"⟩
  opcode := .reporter .random
  inputs := [("FROM", ⟨.literal .number "0.5", none⟩), ("TO", ⟨.literal .string " +2 ", none⟩)]
  fields := []
  next := none
  topLevel := false
  x := 0
  y := 0
  signature := none
  source := .null

/-- A half and a text with a two in it are bounds, and one of them is no integer. -/
theorem random_agrees_half :
    IsBound (fun _ => pure .null) halfToTwo "FROM" (Numeral.leadingNumber "0.5") ∧
    IsBound (fun _ => pure .null) halfToTwo "TO" (Numeral.leadingNumber " +2 ") ∧
    ∃ operand, random (fun _ => pure .null) halfToTwo = (pure operand : Outcome Operand) ∧
      SameUpToParentheses "Math.random() * (2 - 0.5) + 0.5" operand.code.text := by
  have lower : IsBound (fun _ => pure .null) halfToTwo "FROM" (Numeral.leadingNumber "0.5") :=
    isBound_of_literal rfl (by decide +kernel) (by decide +kernel)
  have upper : IsBound (fun _ => pure .null) halfToTwo "TO" (Numeral.leadingNumber " +2 ") :=
    isBound_of_literal rfl (by decide +kernel) (by decide +kernel)
  obtain ⟨operand, compiled, written⟩ :=
    (random_agrees (fun _ => pure .null) halfToTwo).2.1 _ _ lower upper
  refine ⟨lower, upper, operand, compiled, ?_⟩
  have expression : randomChooser.chosen
      (decide (Binary.IsInteger (Numeral.leadingNumber "0.5") ∧
        Binary.IsInteger (Numeral.leadingNumber " +2 ")))
      (Operand.number (Numeral.leadingNumber "0.5")).code.text
      (Operand.number (Numeral.leadingNumber " +2 ")).code.text = "Math.random() * (2 - 0.5) + 0.5" := by
    decide +kernel
  rwa [expression] at written

end

end Compile

end ScratchPage
