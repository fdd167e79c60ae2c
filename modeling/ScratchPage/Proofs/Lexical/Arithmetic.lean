import Mathlib.Logic.Function.Basic
import ScratchPage.Proofs.Decimal.Rounding
import ScratchPage.Proofs.Lexical.Loops

/-!
# Arithmetic in code

What lines of generated code compute, with exact numbers. Expressions are numbers, places, differences,
comparisons and choices between two values; a line assigns the value of an expression to a place. The reader is
a recursive descent on the tokens. It refuses all other code, also where signs of one rank follow each other
without brackets.
-/

namespace ScratchPage.Arithmetic
set_option autoImplicit false

open Lexical

/-! ## Expressions -/

/-- A variable or a property, by the words between its points. -/
abbrev Place := List (List Char)

/-- The numbers at places. -/
abbrev Store := Place → Option ℚ

inductive Value where
  | number (x : ℚ)
  | truth (holds : Bool)
deriving DecidableEq

def Value.number? : Value → Option ℚ
  | .number x => some x
  | .truth _ => none

inductive Operation where
  | minus
  | above
  | atMost
deriving DecidableEq, Repr

namespace Operation

def sign : Operation → List Char
  | .minus => ['-']
  | .above => ['>']
  | .atMost => ['<', '=']

def apply (x y : ℚ) : Operation → Value
  | .minus => .number (x - y)
  | .above => .truth (decide (y < x))
  | .atMost => .truth (decide (x ≤ y))

end Operation

inductive Expression where
  | number (d : Decimal)
  | place (path : Place)
  | binary (op : Operation) (left right : Expression)
  | choice (condition yes no : Expression)
deriving DecidableEq

/-- The value of an expression. There is none where a place holds no number, or where a number stands for a
truth value or the other way around. -/
def Expression.value (store : Store) : Expression → Option Value
  | .number d => some (.number d.value)
  | .place path => (store path).map .number
  | .binary op left right =>
    match left.value store, right.value store with
    | some (.number x), some (.number y) => some (op.apply x y)
    | _, _ => none
  | .choice condition yes no =>
    match condition.value store with
    | some (.truth true) => yes.value store
    | some (.truth false) => no.value store
    | _ => none

namespace Expression

variable {store : Store} {a b c : Expression}

theorem value_number (n : ℕ) : (number ⟨n, 0⟩).value store = some (.number n) := by
  simp [value, Decimal.value]

theorem value_place {path : Place} {x : ℚ} (held : store path = some x) :
    (place path).value store = some (.number x) := by
  rw [value, held, Option.map_some]

theorem value_binary {x y : ℚ} (op : Operation) (left : a.value store = some (.number x))
    (right : b.value store = some (.number y)) : (binary op a b).value store = some (op.apply x y) := by
  rw [value, left, right]

theorem value_choice {holds : Bool} (condition : c.value store = some (.truth holds)) :
    (choice c a b).value store = if holds then a.value store else b.value store := by
  rw [value, condition]
  cases holds <;> rfl

end Expression

/-! ## Reading expressions -/

/-- A reader takes an expression from the front of some tokens. -/
abbrev Reader := List Token → Option (Expression × List Token)

/-- The number that a token stands for. -/
def decimal? (text : List Char) : Option Decimal :=
  match Numeral.scan? text with
  | some (numeral, []) => some numeral.decimal
  | _ => none

/-- The words behind a word, each after a point. -/
def properties : List Token → Place × List Token
  | .sign ['.'] :: .word name :: rest => (name :: (properties rest).1, (properties rest).2)
  | rest => ([], rest)

/-- A number, a place, something in brackets, or one of these after a minus sign. -/
def operand (inner : Reader) : Reader
  | .number text :: rest => (decimal? text).map fun d => (.number d, rest)
  | .word name :: rest => some (.place (name :: (properties rest).1), (properties rest).2)
  | .sign ['-'] :: rest => (operand inner rest).map fun (e, rest) => (.binary .minus (.number ⟨0, 0⟩) e, rest)
  | .opening .round :: rest =>
    match inner rest with
    | some (e, .closing .round :: rest) => some (e, rest)
    | _ => none
  | _ => none

/-- One part, or two parts with the sign of an operation between them. -/
def binary (ops : List Operation) (part : Reader) : Reader := fun ts =>
  (part ts).bind fun
    | (left, .sign text :: rest) =>
      match ops.find? fun op => op.sign == text with
      | some op => (part rest).map fun (right, rest) => (.binary op left right, rest)
      | none => some (left, .sign text :: rest)
    | (left, rest) => some (left, rest)

/-- An expression in which brackets and choices are nested less than `depth` deep. Differences bind more closely
than comparisons, and these more closely than choices. -/
def expression : ℕ → Reader
  | 0, _ => none
  | depth + 1, ts =>
    (binary [.above, .atMost] (binary [.minus] (operand (expression depth))) ts).bind fun
      | (condition, .sign ['?'] :: rest) =>
        (expression depth rest).bind fun
          | (yes, .sign [':'] :: rest) =>
            (expression depth rest).map fun (no, rest) => (.choice condition yes no, rest)
          | _ => none
      | (e, rest) => some (e, rest)

/-- The expression that some tokens are. -/
def expression? (ts : List Token) : Option Expression :=
  match expression ts.length ts with
  | some (e, []) => some e
  | _ => none

/-- The number that some tokens compute. -/
def number? (store : Store) (ts : List Token) : Option ℚ :=
  ((expression? ts).bind (Expression.value store)).bind Value.number?

/-! ## Running lines -/

/-- The word before the name of a constant. -/
def constWord : List Char := ['c', 'o', 'n', 's', 't']

/-- An assignment to a place, up to the semicolon at its end. -/
def assign (store : Store) : List Token → Option Store
  | .word name :: rest =>
    match properties rest with
    | (names, .sign ['='] :: own) =>
      if own.getLast? = some (.sign [';']) then
        (number? store own.dropLast).map fun x => Function.update store (name :: names) (some x)
      else none
    | _ => none
  | _ => none

/-- One line: an assignment, or the declaration of a constant. -/
def runTokens (store : Store) : List Token → Option Store
  | .word first :: rest => if first = constWord then assign store rest else assign store (.word first :: rest)
  | _ => none

/-- The lines one after the other. -/
def runLines : Store → List Line → Option Store
  | store, [] => some store
  | store, line :: rest =>
    ((tokensOf line.content).bind (runTokens store)).bind fun next => runLines next rest

section

variable {store : Store} {own : List Token} {x : ℚ} (computed : number? store own = some x)
include computed

/-- A declaration stores the value of what stands between the equals sign and the semicolon. -/
theorem runTokens_constant (name : List Char) :
    runTokens store (.word constWord :: .word name :: .sign ['='] :: (own ++ [.sign [';']])) =
      some (Function.update store [name] (some x)) := by
  simp [runTokens, assign, properties, computed]

/-- The same for a property of an object. -/
theorem runTokens_property {object : List Char} (other : object ≠ constWord) (name : List Char) :
    runTokens store (.word object :: .sign ['.'] :: .word name :: .sign ['='] :: (own ++ [.sign [';']])) =
      some (Function.update store [object, name] (some x)) := by
  simp [runTokens, assign, properties, computed, other]

end

/-- Lines run as the tokens of their fragments. -/
theorem runLines_of_isRead {lines : List Line} (read : ∀ line ∈ lines, IsRead line) (store : Store) :
    runLines store lines = (lines.map Line.tokens).foldlM runTokens store := by
  induction lines generalizing store with
  | nil => rfl
  | cons line lines ih =>
    rw [List.forall_mem_cons] at read
    have first : tokensOf line.content = some line.tokens := read.1
    rw [runLines, first, Option.bind_some, List.map_cons, List.foldlM_cons]
    exact Option.bind_congr fun next _ => ih read.2 next

end ScratchPage.Arithmetic
