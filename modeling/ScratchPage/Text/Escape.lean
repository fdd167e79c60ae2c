/-!
# Text inside generated code

Three ways to put arbitrary text into a script that stands inside a page. A double-quoted literal
reads back as the text it was made from. A guarded text is JSON that keeps its value as JSON and
cannot close the script element that holds it. A comment text is reduced to characters that cannot
end a comment.
-/

namespace ScratchPage.Text
set_option autoImplicit false

/-- A character as written between double quotes. -/
def escapeChar (c : Char) : List Char :=
  if c = '\\' then ['\\', '\\']
  else if c = '"' then ['\\', '"']
  else if c = '\n' then ['\\', 'n']
  else if c = '\r' then ['\\', 'r']
  else if c = '\u2028' then ['\\', 'u', '2', '0', '2', '8']
  else if c = '\u2029' then ['\\', 'u', '2', '0', '2', '9']
  else if c = '<' then ['\\', 'x', '3', 'C']
  else [c]

/-- A text as written between double quotes. -/
def escape (text : String) : String := String.ofList (text.toList.flatMap escapeChar)

/-- The string literal for a text. -/
def quoted (text : String) : String := "\"" ++ escape text ++ "\""

/-- A character of JSON text as written inside a script. -/
def guardChar (c : Char) : List Char :=
  if c = '<' then ['\\', 'u', '0', '0', '3', 'c']
  else if c = '\u2028' then ['\\', 'u', '2', '0', '2', '8']
  else if c = '\u2029' then ['\\', 'u', '2', '0', '2', '9']
  else [c]

/-- JSON text as written inside a script. The guarded characters occur in JSON only inside strings,
where the escapes stand for the same characters. -/
def guarded (json : String) : String := String.ofList (json.toList.flatMap guardChar)

/-- The character may stand in a comment. -/
def isCommentChar (c : Char) : Bool :=
  c.isAlphanum || c == '_' || c == '-' || c == '.' || c == ' '

/-- A text as written inside a comment. -/
def commentText (text : String) : String :=
  String.ofList (text.toList.map fun c => if isCommentChar c then c else '?')

end ScratchPage.Text
