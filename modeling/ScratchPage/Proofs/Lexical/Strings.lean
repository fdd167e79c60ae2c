import ScratchPage.Proofs.Lexical.Arrays
import ScratchPage.Proofs.Lexical.Markup

/-!
# String literals

A reader of one string literal at the beginning of a text. It knows the escapes of the backslash, the
quotation mark, the line feed and the carriage return and those by two or four hexadecimal digits, and
it refuses every other escape and every raw line break. Started on a quoted text it gives that text
and stops right behind the closing quotation mark, whatever follows.
-/

namespace ScratchPage.Lexical
set_option autoImplicit false

/-- The character whose code has these four hexadecimal digits; a surrogate is not a character. -/
def charOfUnit? (digits : List Char) : Option Char :=
  (Json.readUnit digits).bind fun (code, _) => if code.isValidChar then some (Char.ofNat code) else none

/-- The character that a single character after a backslash stands for. -/
def charOfEscape? (c : Char) : Option Char :=
  if c = '\\' then some '\\'
  else if c = '"' then some '"'
  else if c = 'n' then some '\n'
  else if c = 'r' then some '\r'
  else none

/-- A character in front of what is read after it. -/
def put (c : Char) (read : Option (List Char × List Char)) : Option (List Char × List Char) :=
  read.map fun (chars, rest) => (c :: chars, rest)

/-- Reads a literal after its opening quotation mark: the characters it stands for, and the characters
behind its closing quotation mark. -/
def readInside : List Char → Option (List Char × List Char)
  | [] => none
  | '\\' :: 'x' :: h₁ :: h₂ :: rest => (charOfUnit? ['0', '0', h₁, h₂]).bind fun c => put c (readInside rest)
  | '\\' :: 'u' :: h₁ :: h₂ :: h₃ :: h₄ :: rest =>
    (charOfUnit? [h₁, h₂, h₃, h₄]).bind fun c => put c (readInside rest)
  | '\\' :: e :: rest => (charOfEscape? e).bind fun c => put c (readInside rest)
  | c :: rest =>
    if c = '"' then some ([], rest)
    else if c = '\\' ∨ isTerminator c = true then none
    else put c (readInside rest)

/-- Reads the string literal at the beginning of a text: the text it stands for, and what follows it. -/
def readLiteral? (source : String) : Option (String × String) :=
  match source.toList with
  | '"' :: inside => (readInside inside).map fun (chars, rest) => (String.ofList chars, String.ofList rest)
  | _ => none

/-- Each character is read back from its escaped form, whatever follows. -/
theorem readInside_escapeChar (c : Char) (rest : List Char) :
    readInside (Text.escapeChar c ++ rest) = put c (readInside rest) := by
  unfold Text.escapeChar
  split_ifs with backslash quote feed ret ls ps less
  case neg =>
    have line : isTerminator c = false := by simp [isTerminator, feed, ret, ls, ps]
    simp [readInside, backslash, quote, line]
  all_goals
    subst c
    rfl

theorem readInside_escaped (chars rest : List Char) :
    readInside (chars.flatMap Text.escapeChar ++ '"' :: rest) = some (chars, rest) := by
  induction chars with
  | nil => rfl
  | cons c chars ih =>
    rw [List.flatMap_cons, List.append_assoc, readInside_escapeChar, ih]
    rfl

/-- The characters that could close the script around a text or break its line. -/
def riskyChars : List Char := ['<', '\n', '\r', '\u2028', '\u2029']

theorem OneLine.disjoint {chars : List Char} (line : OneLine chars) (less : '<' ∉ chars) :
    riskyChars.Disjoint chars := by
  intro c listed mem
  have whole := line c mem
  fin_cases listed
  · exact less mem
  all_goals exact absurd whole (by decide)

/-- A quoted text stands on one line. -/
theorem oneLine_quoted (text : String) : OneLine (Text.quoted text).toList := by
  rw [quoted_toList]
  exact (InString.flatMap inString_escapeChar text.toList).oneLine

/-- A quoted text is read back exactly, up to its closing quotation mark and no further, and has none of
the characters that could close the script around it or break its line. -/
theorem readLiteral?_quoted (text rest : String) :
    readLiteral? (Text.quoted text ++ rest) = some (text, rest) ∧
      riskyChars.Disjoint (Text.quoted text).toList := by
  constructor
  · have chars : (Text.quoted text ++ rest).toList =
        '"' :: (text.toList.flatMap Text.escapeChar ++ '"' :: rest.toList) := by
      simp [quoted_toList]
    rw [readLiteral?, chars]
    simp [readInside_escaped]
  · exact (oneLine_quoted text).disjoint (Markup.less_not_mem_quoted text)

end ScratchPage.Lexical
