import ScratchPage.Decimal.Basic
import ScratchPage.Text.Blank

/-!
# Numbers in text

A numeral is an optional sign, digits with an optional point, and an optional exponent, or the word
`Infinity` with an optional sign. `leadingNumber` reads the longest numeral at the start of a text and
ignores what follows; `isNumeric` asks whether a text is a numeral and nothing else. Both skip blanks.
-/

namespace ScratchPage
set_option autoImplicit false

/-- The parts of a decimal numeral. -/
structure Numeral where
  negative : Bool
  whole : List Char
  fraction : List Char
  exponent : Int
deriving DecidableEq, Repr

namespace Numeral

/-- The value as a decimal magnitude. -/
def decimal (n : Numeral) : Decimal :=
  ⟨Decimal.valueOf (n.whole ++ n.fraction), n.exponent - n.fraction.length⟩

def toFloat (n : Numeral) : Float := n.decimal.toFloat n.negative

/-- An optional sign: whether it is a minus, and the rest. -/
def sign : List Char → Bool × List Char
  | '-' :: rest => (true, rest)
  | '+' :: rest => (false, rest)
  | rest => (false, rest)

/-- The digits at the start, and the rest. -/
def digits (cs : List Char) : List Char × List Char := cs.span Char.isDigit

/-- A point with the digits after it, and the rest. -/
def fractionPart : List Char → List Char × List Char
  | '.' :: rest => digits rest
  | rest => ([], rest)

/-- An exponent with at least one digit, and the rest; zero when there is none. -/
def exponentPart (cs : List Char) : Int × List Char :=
  match cs with
  | c :: rest =>
    if c = 'e' ∨ c = 'E' then
      let (negative, afterSign) := sign rest
      let (ds, afterDigits) := digits afterSign
      if ds.isEmpty then (0, cs)
      else (if negative then -(Decimal.valueOf ds : Int) else Decimal.valueOf ds, afterDigits)
    else (0, cs)
  | [] => (0, [])

/-- The longest numeral at the start of a text, and the rest. -/
def scan? (cs : List Char) : Option (Numeral × List Char) :=
  let (negative, afterSign) := sign cs
  let (whole, afterWhole) := digits afterSign
  let (fraction, afterFraction) := fractionPart afterWhole
  if whole.isEmpty && fraction.isEmpty then none
  else
    let (exponent, rest) := exponentPart afterFraction
    some (⟨negative, whole, fraction, exponent⟩, rest)

/-- The word for an unbounded value. -/
def infinityWord : List Char := ['I', 'n', 'f', 'i', 'n', 'i', 't', 'y']

/-- The number at the start of a text after its leading blanks; what follows it is ignored, and a text
that starts with no number is not a number. -/
def leadingNumber (text : String) : Float :=
  let cs := Text.trimLeft text.toList
  let (negative, afterSign) := sign cs
  if infinityWord.isPrefixOf afterSign then Binary.ofMagnitude negative Binary.infinityBits
  else
    match scan? cs with
    | some (numeral, _) => numeral.toFloat
    | none => Float.ofBits 0x7FF8000000000000

/-- The text without its outer blanks is one numeral. -/
def isNumeric (text : String) : Bool :=
  let cs := Text.trim text.toList
  (sign cs).2 == infinityWord ||
    match scan? cs with
    | some (_, rest) => rest.isEmpty
    | none => false

end Numeral

end ScratchPage
