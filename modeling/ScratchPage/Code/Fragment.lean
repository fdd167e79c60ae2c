import ScratchPage.Decimal.Layout
import ScratchPage.Json.Writer
import ScratchPage.Text.Escape

/-!
# Code in fragments

Generated code is a sequence of fragments. Fixed text belongs to the compiler; every other fragment is
a value of the project in one of the forms in which a value can stand in code. Its characters reach
the page only through the form, so what holds of all fixed texts and all forms holds of all code.
-/

namespace ScratchPage
set_option autoImplicit false

/-- A piece of generated code. -/
inductive Fragment where
  | fixed (text : String)
  | quoted (text : String)
  | number (value : Float)
  | integer (value : Int)
  | data (value : Json)
  /-- A comment inside a line. -/
  | comment (text : String)

def Fragment.text : Fragment → String
  | .fixed text => text
  | .quoted text => Text.quoted text
  | .number value => numberLiteral value
  | .integer value => Json.intText value
  | .data value => value.literal
  | .comment text => "/*" ++ Text.commentText text ++ "*/"

/-- Generated code. -/
abbrev Code := List Fragment

instance : Coe String Code := ⟨fun text => [.fixed text]⟩

namespace Code

def quoted (text : String) : Code := [.quoted text]

def number (value : Float) : Code := [.number value]

def integer (value : Int) : Code := [.integer value]

def data (value : Json) : Code := [.data value]

def comment (text : String) : Code := [.comment text]

/-- The characters of code. -/
def text (code : Code) : String := String.join (code.map Fragment.text)

end Code

end ScratchPage
