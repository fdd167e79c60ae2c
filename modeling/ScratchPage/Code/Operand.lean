import ScratchPage.Code.Fragment

/-!
# Operands

The JavaScript expressions that blocks become. Each one is written so that it can stand beside any
operator without being regrouped: it is an atom, a call, a property, or something in parentheses.
-/

namespace ScratchPage
set_option autoImplicit false

/-- Operators between two operands. -/
inductive Operator where
  | and
  | or
  | equal
  | greater
  | less
  | plus
  | minus
  | times
  | over
  | modulo
deriving DecidableEq, Repr

def Operator.sign : Operator → String
  | .and => "&&"
  | .or => "||"
  | .equal => "=="
  | .greater => ">"
  | .less => "<"
  | .plus => "+"
  | .minus => "-"
  | .times => "*"
  | .over => "/"
  | .modulo => "%"

/-- Functions of one number. Angles are in degrees. -/
inductive MathFunction where
  | round
  | abs
  | floor
  | ceiling
  | sqrt
  | sin
  | cos
  | tan
  | asin
  | acos
  | atan
  | ln
  | log
  | exp
  | powerOfTen
deriving DecidableEq, Repr

namespace MathFunction

/-- The function with the name it has in a block's menu. -/
def ofName? (name : String) : Option MathFunction :=
  if name = "abs" then some .abs
  else if name = "floor" then some .floor
  else if name = "ceiling" then some .ceiling
  else if name = "sqrt" then some .sqrt
  else if name = "sin" then some .sin
  else if name = "cos" then some .cos
  else if name = "tan" then some .tan
  else if name = "asin" then some .asin
  else if name = "acos" then some .acos
  else if name = "atan" then some .atan
  else if name = "ln" then some .ln
  else if name = "log" then some .log
  else if name = "e ^" then some .exp
  else if name = "10 ^" then some .powerOfTen
  else none

/-- The code before and after the argument. -/
def around : MathFunction → String × String
  | .round => ("Math.round(", ")")
  | .abs => ("Math.abs(", ")")
  | .floor => ("Math.floor(", ")")
  | .ceiling => ("Math.ceil(", ")")
  | .sqrt => ("Math.sqrt(", ")")
  | .sin => ("Math.sin((Math.PI / 180) * ", ")")
  | .cos => ("Math.cos((Math.PI / 180) * ", ")")
  | .tan => ("Math.tan((Math.PI / 180) * ", ")")
  | .asin => ("(Math.asin(", ") * (180 / Math.PI))")
  | .acos => ("(Math.acos(", ") * (180 / Math.PI))")
  | .atan => ("(Math.atan(", ") * (180 / Math.PI))")
  | .ln => ("Math.log(", ")")
  | .log => ("Math.log10(", ")")
  | .exp => ("Math.exp(", ")")
  | .powerOfTen => ("Math.pow(10, ", ")")

end MathFunction

/-- Whose costumes are meant. -/
inductive Wearer where
  | self
  | stage
deriving DecidableEq, Repr

def Wearer.code : Wearer → String
  | .self => "this"
  | .stage => "stageSprite"

/-- An expression that a block becomes. -/
inductive Operand where
  | null
  | false
  | number (value : Float)
  | text (value : String)
  /-- The place of a block that has no code. -/
  | missing (opcode : String)
  | binary (op : Operator) (left right : Operand)
  | not (operand : Operand)
  | math (function : MathFunction) (operand : Operand)
  /-- A random integer between two known integers. -/
  | randomInteger (low high : Float)
  /-- A random number between two known numbers. -/
  | randomReal (low high : Float)
  /-- A random number between two values that are known only at run time. -/
  | randomBetween (low high : Operand)
  | join (left right : Operand)
  | contains (whole part : Operand)
  | length (whole : Operand)
  | letter (index whole : Operand)
  | xPosition
  | yPosition
  | direction
  | mouseX
  | mouseY
  | mouseDown
  | anyKeyDown
  | keyDown (key : String)
  | touchingMouse
  | size
  | costumeName (wearer : Wearer)
  | costumeNumber (wearer : Wearer)
  | variable (key : String)
  | listText (key : String)
  | listItem (key : String) (index : Operand)
  | listIndex (key : String) (item : Operand)
  | listContains (key : String) (item : Operand)
  | listLength (key : String)
  /-- An argument of the procedure that is running. -/
  | argument (name : String)
  /-- A reading of a variable or list as a number. -/
  | asNumber (reading : Operand)

namespace Operand

/-- The list under a key. -/
def listCode (key : String) : Code := "this.getListReference(" ++ Code.quoted key ++ ")"

/-- The random numbers between `low` and `high`, both included when they are integers. -/
def randomFunction : Code :=
  [.fixed "((from, to) => (Number.isInteger(from) && Number.isInteger(to)) ? ",
   .fixed "Math.floor(Math.random() * (to - from + 1) + from) : Math.random() * (to - from) + from)"]

/-- The code of an operand. -/
def code : Operand → Code
  | .null => "null"
  | .false => "false"
  | .number value => Code.number value
  | .text value => Code.quoted value
  | .missing opcode => "(" ++ Code.comment ("Unimplemented value " ++ opcode) ++ " null)"
  | .binary op left right => "(" ++ left.code ++ " " ++ op.sign ++ " " ++ right.code ++ ")"
  | .not operand => "(!" ++ operand.code ++ ")"
  | .math function operand => function.around.1 ++ operand.code ++ function.around.2
  | .randomInteger low high =>
    "Math.floor(Math.random() * (" ++ Code.number high ++ " - " ++ Code.number low ++ " + 1) + " ++
      Code.number low ++ ")"
  | .randomReal low high =>
    "(Math.random() * (" ++ Code.number high ++ " - " ++ Code.number low ++ ") + " ++
      Code.number low ++ ")"
  | .randomBetween low high => randomFunction ++ "(" ++ low.code ++ ", " ++ high.code ++ ")"
  | .join left right => "(String(" ++ left.code ++ ") + String(" ++ right.code ++ "))"
  | .contains whole part => "(String(" ++ whole.code ++ ").includes(String(" ++ part.code ++ ")))"
  | .length whole => "(String(" ++ whole.code ++ ").length)"
  | .letter index whole => "(String(" ++ whole.code ++ ").charAt(" ++ index.code ++ " - 1))"
  | .xPosition => "(this.x - 240)"
  | .yPosition => "(180 - this.y)"
  | .direction => "((90 - this.direction <= -180) ? (450 - this.direction) : (90 - this.direction))"
  | .mouseX => "(mouseX - 240)"
  | .mouseY => "(180 - mouseY)"
  | .mouseDown => "mouseBeingPressed"
  | .anyKeyDown => "isAnyKeyDown()"
  | .keyDown key => "(!!(pressedKeys.get(" ++ Code.quoted key ++ ")))"
  | .touchingMouse => "(await this.intersectsPoint(mouseX, mouseY))"
  | .size => "this.size"
  | .costumeName wearer =>
    "(" ++ wearer.code ++ ".costumes[" ++ wearer.code ++ ".currentCostume].name)"
  | .costumeNumber wearer => "(" ++ wearer.code ++ ".currentCostume + 1)"
  | .variable key => "this.getVariable(" ++ Code.quoted key ++ ")"
  | .listText key => listCode key ++ ".join(\" \")"
  | .listItem key index => listCode key ++ "[" ++ index.code ++ " - 1]"
  | .listIndex key item => "(" ++ listCode key ++ ".indexOf(" ++ item.code ++ ") + 1)"
  | .listContains key item => listCode key ++ ".includes(" ++ item.code ++ ")"
  | .listLength key => listCode key ++ ".length"
  | .argument name => "argsMethodArgs[argsArgMapping.indexOf(" ++ Code.quoted name ++ ")]"
  | .asNumber reading => "parseFloat(" ++ reading.code ++ ")"

end Operand

end ScratchPage
