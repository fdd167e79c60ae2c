import ScratchPage.Json.Numeric

/-!
# Reading JSON

The strict grammar of JSON: white space is space, tab, line feed and carriage return; strings hold no
raw control characters and no unpaired surrogates; nothing but white space follows the value. Arrays
and objects nest at most `maxDepth` deep. A reader takes the characters left and gives a value with
the characters after it. Loops over characters, items and fields run on a bound that each step of the
loop consumes at least one character of.
-/

namespace ScratchPage.Json
set_option autoImplicit false

/-- The deepest nesting of arrays and objects. -/
def maxDepth : Nat := 127

def isSpace (c : Char) : Bool := c == ' ' || c == '\t' || c == '\n' || c == '\r'

def skipSpace (cs : List Char) : List Char := cs.dropWhile isSpace

/-- The characters after a word, when the text starts with it. -/
def after? (word cs : List Char) : Option (List Char) :=
  if word.isPrefixOf cs then some (cs.drop word.length) else none

/-! ## Strings -/

/-- The value of a hexadecimal digit. -/
def hexValue? (c : Char) : Option Nat :=
  if '0' ≤ c ∧ c ≤ '9' then some (c.toNat - 48)
  else if 'a' ≤ c ∧ c ≤ 'f' then some (c.toNat - 87)
  else if 'A' ≤ c ∧ c ≤ 'F' then some (c.toNat - 55)
  else none

/-- Four hexadecimal digits. -/
def readUnit : List Char → Option (Nat × List Char)
  | a :: b :: c :: d :: rest => do
    let a ← hexValue? a
    let b ← hexValue? b
    let c ← hexValue? c
    let d ← hexValue? d
    some (((a * 16 + b) * 16 + c) * 16 + d, rest)
  | _ => none

/-- A character given by one code unit or by a pair of surrogates. -/
def readUnicode (cs : List Char) : Option (Char × List Char) := do
  let (unit, rest) ← readUnit cs
  if 0xD800 ≤ unit ∧ unit ≤ 0xDBFF then
    let rest ← after? ['\\', 'u'] rest
    let (low, rest) ← readUnit rest
    if 0xDC00 ≤ low ∧ low ≤ 0xDFFF then
      some (Char.ofNat (0x10000 + (unit - 0xD800) * 1024 + (low - 0xDC00)), rest)
    else none
  else if 0xDC00 ≤ unit ∧ unit ≤ 0xDFFF then none
  else some (Char.ofNat unit, rest)

/-- The character that an escape after the backslash stands for. -/
def readEscape : List Char → Option (Char × List Char)
  | '"' :: rest => some ('"', rest)
  | '\\' :: rest => some ('\\', rest)
  | '/' :: rest => some ('/', rest)
  | 'b' :: rest => some (Char.ofNat 0x08, rest)
  | 'f' :: rest => some (Char.ofNat 0x0C, rest)
  | 'n' :: rest => some ('\n', rest)
  | 'r' :: rest => some ('\r', rest)
  | 't' :: rest => some ('\t', rest)
  | 'u' :: rest => readUnicode rest
  | _ => none

/-- One character of a string. -/
def readChar : List Char → Option (Char × List Char)
  | [] => none
  | c :: rest =>
    if c = '\\' then readEscape rest
    else if c = '"' ∨ c.toNat < 0x20 then none
    else some (c, rest)

/-- The characters up to the closing quotation mark, after those in `done`, which is reversed. -/
def readChars : Nat → List Char → List Char → Option (List Char × List Char)
  | 0, _, _ => none
  | fuel + 1, done, cs =>
    match cs with
    | '"' :: rest => some (done.reverse, rest)
    | _ =>
      match readChar cs with
      | some (c, rest) => readChars fuel (c :: done) rest
      | none => none

/-- A string after its opening quotation mark. -/
def readString (cs : List Char) : Option (String × List Char) :=
  (readChars (cs.length + 1) [] cs).map fun (chars, rest) => (String.ofList chars, rest)

/-! ## Numbers -/

/-- The digits before the point: a single zero, or digits that do not start with zero. -/
def readWhole (cs : List Char) : Option (List Char × List Char) :=
  match Numeral.digits cs with
  | ([], _) => none
  | ('0' :: _ :: _, _) => none
  | (whole, rest) => some (whole, rest)

/-- A point with at least one digit after it, or nothing. -/
def readFraction : List Char → Option (Option (List Char) × List Char)
  | '.' :: rest =>
    match Numeral.digits rest with
    | ([], _) => none
    | (digits, rest) => some (some digits, rest)
  | rest => some (none, rest)

/-- An exponent with at least one digit, or nothing. -/
def readExponent (cs : List Char) : Option (Option (Bool × List Char) × List Char) :=
  match cs with
  | c :: rest =>
    if c = 'e' ∨ c = 'E' then
      let (negative, rest) := Numeral.sign rest
      match Numeral.digits rest with
      | ([], _) => none
      | (digits, rest) => some (some (negative, digits), rest)
    else some (none, cs)
  | [] => some (none, [])

/-- A number. -/
def readNumber (cs : List Char) : Option (Number × List Char) := do
  let (negative, rest) := match cs with
    | '-' :: rest => (true, rest)
    | rest => (false, rest)
  let (whole, rest) ← readWhole rest
  let (fraction, rest) ← readFraction rest
  let (exponent, rest) ← readExponent rest
  let value ← NumberToken.value? ⟨negative, whole, fraction, exponent⟩
  some (value, rest)

/-! ## Values -/

/-- A value without nested values. -/
def readScalar (cs : List Char) : Option (Json × List Char) :=
  match cs with
  | '"' :: rest => (readString rest).map fun (s, rest) => (.string s, rest)
  | 'n' :: _ => (after? "null".toList cs).map fun rest => (.null, rest)
  | 't' :: _ => (after? "true".toList cs).map fun rest => (.bool true, rest)
  | 'f' :: _ => (after? "false".toList cs).map fun rest => (.bool false, rest)
  | _ => (readNumber cs).map fun (n, rest) => (.number n, rest)

/-- The items of an array after those in `done`, which is reversed, up to the closing bracket. -/
def readItems (item : List Char → Option (Json × List Char)) :
    Nat → List Json → List Char → Option (List Json × List Char)
  | 0, _, _ => none
  | fuel + 1, done, cs => do
    let (value, rest) ← item cs
    match skipSpace rest with
    | ',' :: rest => readItems item fuel (value :: done) rest
    | ']' :: rest => some ((value :: done).reverse, rest)
    | _ => none

/-- A key and the colon after it. -/
def readKey (cs : List Char) : Option (String × List Char) :=
  match skipSpace cs with
  | '"' :: rest => do
    let (key, rest) ← readString rest
    match skipSpace rest with
    | ':' :: rest => some (key, rest)
    | _ => none
  | _ => none

/-- The fields of an object after those in `done`, which is reversed, up to the closing brace. -/
def readFields (item : List Char → Option (Json × List Char)) :
    Nat → List (String × Json) → List Char → Option (List (String × Json) × List Char)
  | 0, _, _ => none
  | fuel + 1, done, cs => do
    let (key, rest) ← readKey cs
    let (value, rest) ← item rest
    match skipSpace rest with
    | ',' :: rest => readFields item fuel ((key, value) :: done) rest
    | '\x7d' :: rest => some (((key, value) :: done).reverse, rest)
    | _ => none

/-- A value nested at most `depth` deep. -/
def readValue : Nat → List Char → Option (Json × List Char)
  | 0, cs => readScalar (skipSpace cs)
  | depth + 1, cs =>
    match skipSpace cs with
    | '[' :: rest =>
      match skipSpace rest with
      | ']' :: rest => some (.array [], rest)
      | rest => (readItems (readValue depth) rest.length [] rest).map fun (items, rest) =>
          (.array items, rest)
    | '\x7b' :: rest =>
      match skipSpace rest with
      | '\x7d' :: rest => some (.object [], rest)
      | rest => (readFields (readValue depth) rest.length [] rest).map fun (fields, rest) =>
          (.object (Keyed.ofList fields), rest)
    | cs => readScalar cs

/-- The value that a whole text stands for. -/
def read? (source : String) : Option Json := do
  let (value, rest) ← readValue maxDepth source.toList
  if (skipSpace rest).isEmpty then some value else none

end ScratchPage.Json
