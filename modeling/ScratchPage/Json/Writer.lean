import ScratchPage.Decimal.Layout
import ScratchPage.Json.Basic
import ScratchPage.Text.Escape

/-!
# Compact JSON text

Values are written without spaces. Strings escape the quotation mark, the backslash and the control
characters below U+0020. A literal is this text guarded for use inside a script.
-/

namespace ScratchPage.Json
set_option autoImplicit false

/-- A digit of base sixteen, in lower case. -/
def hexDigit (n : Nat) : Char := if n < 10 then Char.ofNat (48 + n) else Char.ofNat (87 + n)

/-- A character as written inside a JSON string. -/
def escapeChar (c : Char) : List Char :=
  if c = '"' then ['\\', '"']
  else if c = '\\' then ['\\', '\\']
  else if c = '\n' then ['\\', 'n']
  else if c = '\r' then ['\\', 'r']
  else if c = '\t' then ['\\', 't']
  else if c.toNat = 0x08 then ['\\', 'b']
  else if c.toNat = 0x0C then ['\\', 'f']
  else if c.toNat < 0x20 then
    ['\\', 'u', '0', '0', hexDigit (c.toNat / 16), hexDigit (c.toNat % 16)]
  else [c]

/-- A JSON string. -/
def quote (text : String) : String := String.ofList ('"' :: text.toList.flatMap escapeChar ++ ['"'])

/-- An integer in decimal. -/
def intText (i : Int) : String :=
  String.ofList (if i < 0 then '-' :: Decimal.digitChars i.natAbs else Decimal.digitChars i.natAbs)

/-- A number as it was meant: integers in decimal, doubles by their shortest digits. -/
def Number.text : Number → String
  | .int i => intText i
  | .double f => Decimal.signed f (Decimal.shortest .even f).scientific

mutual

/-- The compact text of a value. -/
def text : Json → String
  | .null => "null"
  | .bool b => if b then "true" else "false"
  | .number n => n.text
  | .string s => quote s
  | .array items => "[" ++ ",".intercalate (itemTexts items) ++ "]"
  | .object fields => "\x7b" ++ ",".intercalate (fieldTexts fields) ++ "\x7d"

/-- The texts of the items of an array. -/
def itemTexts : List Json → List String
  | [] => []
  | item :: rest => text item :: itemTexts rest

/-- The texts of the fields of an object. -/
def fieldTexts : List (String × Json) → List String
  | [] => []
  | (key, value) :: rest => (quote key ++ ":" ++ text value) :: fieldTexts rest

end

/-- The text of a value that has one outside JSON: strings as they are, numbers and booleans as
written. -/
def plainText? : Json → Option String
  | .string s => some s
  | .number n => some n.text
  | .bool b => some (if b then "true" else "false")
  | _ => none

/-- A value as a literal in a script. -/
def literal (value : Json) : String := Text.guarded value.text

end ScratchPage.Json
