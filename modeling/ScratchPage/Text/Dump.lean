import ScratchPage.Text.Hidden

/-!
# Text inside messages

A text in quotation marks as messages show it: characters without a visible form of their own are
written by their code points.
-/

namespace ScratchPage.Text
set_option autoImplicit false

/-- A character inside a dumped text. -/
def dumpChar (c : Char) : List Char :=
  if c = '"' then ['\\', '"']
  else if c = '\\' then ['\\', '\\']
  else if c = '\n' then ['\\', 'n']
  else if c = '\r' then ['\\', 'r']
  else if c = '\t' then ['\\', 't']
  else if c.toNat = 0 then ['\\', '0']
  else if isHidden c then
    ['\\', 'u', '\x7b'] ++ Nat.toDigits 16 c.toNat ++ ['\x7d']
  else [c]

/-- A text in quotation marks. -/
def dump (text : String) : String := String.ofList ('"' :: text.toList.flatMap dumpChar ++ ['"'])

/-- A text that may be absent. -/
def dumpOption : Option String → String
  | some text => "Some(" ++ dump text ++ ")"
  | none => "None"

end ScratchPage.Text
