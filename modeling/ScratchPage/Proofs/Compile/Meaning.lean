import ScratchPage.Code.Operand

/-!
# What operands mean

The values of expressions on a running page. Of the language's own functions only the kind of their results
is known: what `String` gives is a text, what `Math.abs` gives is a number. The logical operators give one of
their operands, and `+` puts texts together as soon as one of its operands is a text or an object. Variables,
items of lists, arguments and the size of a sprite hold whatever was stored there; the costume of a sprite is
kept by its place among the costumes.
-/

namespace ScratchPage
set_option autoImplicit false

/-- Values of expressions. -/
inductive Value where
  | number (x : Float)
  | truth (holds : Bool)
  | text (s : String)
  | null
  | undefined
  /-- An array, for instance. -/
  | object (index : Nat)

namespace Value

def isText : Value → Bool
  | .text _ => true
  | _ => false

/-- Next to the value `+` puts texts together. -/
def isJoined : Value → Bool
  | .text _ | .object _ => true
  | _ => false

/-- The value can be calculated with: it is a number, a truth value or null. -/
def isPlain : Value → Bool
  | .number _ | .truth _ | .null => true
  | .text _ | .undefined | .object _ => false

/-- The value counts as true in a condition. -/
def isTrue : Value → Bool
  | .number x => !(x == 0 || x.isNaN)
  | .truth holds => holds
  | .text s => s != ""
  | .null | .undefined => false
  | .object _ => true

end Value

/-- The functions of the language. What they give is left open, but for the text of a text. -/
structure Language where
  toNumber : Value → Float
  toText : Value → String
  toText_text : ∀ s, toText (.text s) = s
  compare : Operator → Value → Value → Bool
  calculate : Operator → Float → Float → Float
  function : MathFunction → Float → Float
  parseFloat : String → Float
  isInteger : Float → Bool
  occurs : String → String → Bool
  length : String → Float
  letterAt : String → Float → String
  joined : List Value → String
  itemAt : List Value → Float → Value
  indexOf : List Value → Value → Float
  includes : List Value → Value → Bool

instance : Inhabited Language where
  default :=
    { toNumber
        | .number x => x
        | _ => 0
      toText
        | .text s => s
        | _ => ""
      toText_text _ := rfl
      compare _ _ _ := false
      calculate _ _ _ := 0
      function _ _ := 0
      parseFloat _ := 0
      isInteger _ := false
      occurs _ _ := false
      length _ := 0
      letterAt _ _ := ""
      joined _ := ""
      itemAt _ _ := .undefined
      indexOf _ _ := 0
      includes _ _ := false }

/-- A page at a moment of its run: the language and what stands where. -/
structure Moment extends Language where
  x : Value
  y : Value
  direction : Value
  mouseX : Value
  mouseY : Value
  mouseDown : Bool
  anyKeyDown : Bool
  keyDown : String → Bool
  touchingMouse : Bool
  size : Value
  costumeName : Wearer → String
  costumeIndex : Wearer → Float
  stored : String → Value
  items : String → List Value
  argument : String → Value

namespace Moment

variable (moment : Moment)

/-- The sum of two values, or their texts one after the other. -/
def plus (a b : Value) : Value :=
  if a.isJoined || b.isJoined then .text (moment.toText a ++ moment.toText b)
  else .number (moment.toNumber a + moment.toNumber b)

/-- What the function for random numbers makes of a random number below one and of two bounds. -/
def between (random : Float) (low high : Value) : Value :=
  match low, high with
  | .number a, .number b =>
    if moment.isInteger a && moment.isInteger b then .number (random * (b - a + 1) + a).floor
    else .number (random * (b - a) + a)
  | _, _ => moment.plus (.number (random * (moment.toNumber high - moment.toNumber low))) low

/-- The direction that a sprite shows in the editor. -/
def editorDirection : Float :=
  let direction := moment.toNumber moment.direction
  if 90 - direction ≤ -180 then 450 - direction else 90 - direction

end Moment

namespace Operand

/-- The operand has a value at a moment. Each call for a random number gives any number. -/
inductive Evaluates (moment : Moment) : Operand → Value → Prop
  | null : Evaluates moment .null .null
  | false : Evaluates moment .false (.truth Bool.false)
  | number (x : Float) : Evaluates moment (.number x) (.number x)
  | text (s : String) : Evaluates moment (.text s) (.text s)
  | missing (opcode : String) : Evaluates moment (.missing opcode) .null
  | and {left right : Operand} {a b : Value} : Evaluates moment left a → Evaluates moment right b →
      Evaluates moment (.binary .and left right) (if a.isTrue then b else a)
  | or {left right : Operand} {a b : Value} : Evaluates moment left a → Evaluates moment right b →
      Evaluates moment (.binary .or left right) (if a.isTrue then a else b)
  | plus {left right : Operand} {a b : Value} : Evaluates moment left a → Evaluates moment right b →
      Evaluates moment (.binary .plus left right) (moment.plus a b)
  | comparison {op : Operator} {left right : Operand} {a b : Value} : op ∈ [.equal, .greater, .less] →
      Evaluates moment left a → Evaluates moment right b →
      Evaluates moment (.binary op left right) (.truth (moment.compare op a b))
  | calculation {op : Operator} {left right : Operand} {a b : Value} :
      op ∈ [.minus, .times, .over, .modulo] → Evaluates moment left a → Evaluates moment right b →
      Evaluates moment (.binary op left right)
        (.number (moment.calculate op (moment.toNumber a) (moment.toNumber b)))
  | not {operand : Operand} {a : Value} : Evaluates moment operand a →
      Evaluates moment (.not operand) (.truth !a.isTrue)
  | math {function : MathFunction} {operand : Operand} {a : Value} : Evaluates moment operand a →
      Evaluates moment (.math function operand) (.number (moment.function function (moment.toNumber a)))
  | randomInteger (low high random : Float) :
      Evaluates moment (.randomInteger low high) (.number (random * (high - low + 1) + low).floor)
  | randomReal (low high random : Float) :
      Evaluates moment (.randomReal low high) (.number (random * (high - low) + low))
  | randomBetween {low high : Operand} {a b : Value} (random : Float) : Evaluates moment low a →
      Evaluates moment high b → Evaluates moment (.randomBetween low high) (moment.between random a b)
  | join {left right : Operand} {a b : Value} : Evaluates moment left a → Evaluates moment right b →
      Evaluates moment (.join left right) (.text (moment.toText a ++ moment.toText b))
  | contains {whole part : Operand} {a b : Value} : Evaluates moment whole a → Evaluates moment part b →
      Evaluates moment (.contains whole part) (.truth (moment.occurs (moment.toText b) (moment.toText a)))
  | length {whole : Operand} {a : Value} : Evaluates moment whole a →
      Evaluates moment (.length whole) (.number (moment.length (moment.toText a)))
  | letter {index whole : Operand} {a b : Value} : Evaluates moment index a → Evaluates moment whole b →
      Evaluates moment (.letter index whole)
        (.text (moment.letterAt (moment.toText b) (moment.toNumber a - 1)))
  | xPosition : Evaluates moment .xPosition (.number (moment.toNumber moment.x - 240))
  | yPosition : Evaluates moment .yPosition (.number (180 - moment.toNumber moment.y))
  | direction : Evaluates moment .direction (.number moment.editorDirection)
  | mouseX : Evaluates moment .mouseX (.number (moment.toNumber moment.mouseX - 240))
  | mouseY : Evaluates moment .mouseY (.number (180 - moment.toNumber moment.mouseY))
  | mouseDown : Evaluates moment .mouseDown (.truth moment.mouseDown)
  | anyKeyDown : Evaluates moment .anyKeyDown (.truth moment.anyKeyDown)
  | keyDown (key : String) : Evaluates moment (.keyDown key) (.truth (moment.keyDown key))
  | touchingMouse : Evaluates moment .touchingMouse (.truth moment.touchingMouse)
  | size : Evaluates moment .size moment.size
  | costumeName (wearer : Wearer) :
      Evaluates moment (.costumeName wearer) (.text (moment.costumeName wearer))
  | costumeNumber (wearer : Wearer) :
      Evaluates moment (.costumeNumber wearer) (.number (moment.costumeIndex wearer + 1))
  | variable (key : String) : Evaluates moment (.variable key) (moment.stored key)
  | listText (key : String) : Evaluates moment (.listText key) (.text (moment.joined (moment.items key)))
  | listItem {key : String} {index : Operand} {a : Value} : Evaluates moment index a →
      Evaluates moment (.listItem key index) (moment.itemAt (moment.items key) (moment.toNumber a - 1))
  | listIndex {key : String} {item : Operand} {a : Value} : Evaluates moment item a →
      Evaluates moment (.listIndex key item) (.number (moment.indexOf (moment.items key) a + 1))
  | listContains {key : String} {item : Operand} {a : Value} : Evaluates moment item a →
      Evaluates moment (.listContains key item) (.truth (moment.includes (moment.items key) a))
  | listLength (key : String) :
      Evaluates moment (.listLength key) (.number (Float.ofNat (moment.items key).length))
  | argument (name : String) : Evaluates moment (.argument name) (moment.argument name)
  | asNumber {reading : Operand} {a : Value} : Evaluates moment reading a →
      Evaluates moment (.asNumber reading) (.number (moment.parseFloat (moment.toText a)))

/-- Every operand has a value at every moment. -/
theorem exists_evaluates (moment : Moment) (operand : Operand) : ∃ value, operand.Evaluates moment value := by
  induction operand with
  | null => exact ⟨_, .null⟩
  | false => exact ⟨_, .false⟩
  | number x => exact ⟨_, .number x⟩
  | text s => exact ⟨_, .text s⟩
  | missing opcode => exact ⟨_, .missing opcode⟩
  | binary op left right first second =>
    obtain ⟨a, left⟩ := first
    obtain ⟨b, right⟩ := second
    cases op with
    | and => exact ⟨_, .and left right⟩
    | or => exact ⟨_, .or left right⟩
    | plus => exact ⟨_, .plus left right⟩
    | equal | greater | less => exact ⟨_, .comparison (by decide) left right⟩
    | _ => exact ⟨_, .calculation (by decide) left right⟩
  | not operand inner => exact inner.elim fun _ inner => ⟨_, .not inner⟩
  | math function operand inner => exact inner.elim fun _ inner => ⟨_, .math inner⟩
  | randomInteger low high => exact ⟨_, .randomInteger low high 0⟩
  | randomReal low high => exact ⟨_, .randomReal low high 0⟩
  | randomBetween low high first second =>
    exact first.elim fun _ first => second.elim fun _ second => ⟨_, .randomBetween 0 first second⟩
  | join left right first second =>
    exact first.elim fun _ first => second.elim fun _ second => ⟨_, .join first second⟩
  | contains whole part first second =>
    exact first.elim fun _ first => second.elim fun _ second => ⟨_, .contains first second⟩
  | length whole inner => exact inner.elim fun _ inner => ⟨_, .length inner⟩
  | letter index whole first second =>
    exact first.elim fun _ first => second.elim fun _ second => ⟨_, .letter first second⟩
  | xPosition => exact ⟨_, .xPosition⟩
  | yPosition => exact ⟨_, .yPosition⟩
  | direction => exact ⟨_, .direction⟩
  | mouseX => exact ⟨_, .mouseX⟩
  | mouseY => exact ⟨_, .mouseY⟩
  | mouseDown => exact ⟨_, .mouseDown⟩
  | anyKeyDown => exact ⟨_, .anyKeyDown⟩
  | keyDown key => exact ⟨_, .keyDown key⟩
  | touchingMouse => exact ⟨_, .touchingMouse⟩
  | size => exact ⟨_, .size⟩
  | costumeName wearer => exact ⟨_, .costumeName wearer⟩
  | costumeNumber wearer => exact ⟨_, .costumeNumber wearer⟩
  | «variable» key => exact ⟨_, .variable key⟩
  | listText key => exact ⟨_, .listText key⟩
  | listItem key index inner => exact inner.elim fun _ inner => ⟨_, .listItem inner⟩
  | listIndex key item inner => exact inner.elim fun _ inner => ⟨_, .listIndex inner⟩
  | listContains key item inner => exact inner.elim fun _ inner => ⟨_, .listContains inner⟩
  | listLength key => exact ⟨_, .listLength key⟩
  | argument name => exact ⟨_, .argument name⟩
  | asNumber reading inner => exact inner.elim fun _ inner => ⟨_, .asNumber inner⟩

/-! ## Plain values -/

/-- The form of the operand alone makes its value one that can be calculated with. -/
def isPlain : Operand → Bool
  | .null | .false | .number _ | .missing _ | .not _ | .math _ _ | .randomInteger _ _ | .randomReal _ _ => true
  | .binary op _ _ => op ∉ [.and, .or, .plus]
  | .contains _ _ | .length _ | .xPosition | .yPosition | .direction | .mouseX | .mouseY | .mouseDown => true
  | .anyKeyDown | .keyDown _ | .touchingMouse | .costumeNumber _ | .listIndex _ _ | .listContains _ _ => true
  | .listLength _ | .asNumber _ => true
  | .text _ | .randomBetween _ _ | .join _ _ | .letter _ _ | .size | .costumeName _ | .variable _ => Bool.false
  | .listText _ | .listItem _ _ | .argument _ => Bool.false

theorem Evaluates.isPlain {moment : Moment} {operand : Operand} {value : Value}
    (evaluates : operand.Evaluates moment value) (plain : operand.isPlain = true) : value.isPlain = true := by
  cases evaluates with
  | and | or | plus | text | randomBetween | join | letter | size | costumeName | «variable» | listText
  | listItem | argument => cases plain
  | _ => rfl

/-- The operand can be calculated with at every moment, unless the condition holds. -/
def PlainUnless (text : Prop) (operand : Operand) : Prop :=
  ∀ moment value, operand.Evaluates moment value → value.isPlain = true ∨ text

namespace PlainUnless

variable {p q : Prop} {left right : Operand}

theorem imp (plain : PlainUnless p left) (weaken : p → q) : PlainUnless q left :=
  fun moment value evaluates => (plain moment value evaluates).imp_right weaken

theorem of_text {operand : Operand} (text : p) : PlainUnless p operand := fun _ _ _ => .inr text

theorem of_isPlain {operand : Operand} (plain : operand.isPlain = true) : PlainUnless p operand :=
  fun _ _ evaluates => .inl (evaluates.isPlain plain)

/-- The logical operators give the value of one of their operands. -/
theorem logic {op : Operator} (isLogic : op = .and ∨ op = .or) (first : PlainUnless p left)
    (second : PlainUnless q right) : PlainUnless (p ∨ q) (.binary op left right) := by
  intro moment value evaluates
  have choice : left.Evaluates moment value ∨ right.Evaluates moment value := by
    obtain rfl | rfl := isLogic
    · cases evaluates with
      | and a b => split <;> simp [a, b]
      | comparison known | calculation known => simp at known
    · cases evaluates with
      | or a b => split <;> simp [a, b]
      | comparison known | calculation known => simp at known
  obtain here | here := choice
  · exact (first moment value here).imp_right .inl
  · exact (second moment value here).imp_right .inr

/-- A sum of values that can be calculated with is a number. -/
theorem moment_plus (moment : Moment) {a b : Value} (first : a.isPlain = true ∨ p)
    (second : b.isPlain = true ∨ q) : (moment.plus a b).isPlain = true ∨ p ∨ q := by
  unfold Moment.plus
  split
  next texts =>
    obtain text | text := Bool.or_eq_true_iff.1 texts
    · cases a <;> simp_all [Value.isPlain, Value.isJoined]
    · cases b <;> simp_all [Value.isPlain, Value.isJoined]
  next => exact .inl rfl

theorem sum (first : PlainUnless p left) (second : PlainUnless q right) :
    PlainUnless (p ∨ q) (.binary .plus left right) := by
  intro moment value evaluates
  cases evaluates with
  | plus a b => exact moment_plus moment (first _ _ a) (second _ _ b)
  | comparison known | calculation known => simp at known

/-- A random number is added to its lower bound. -/
theorem random (first : PlainUnless p left) : PlainUnless p (.randomBetween left right) := by
  intro moment value evaluates
  cases evaluates with
  | randomBetween random a b =>
    unfold Moment.between
    split
    · split
      · exact .inl rfl
      · exact .inl rfl
    · have number (x : Float) : (Value.number x).isPlain = true ∨ False := .inl rfl
      simpa using moment_plus moment (number _) (first _ _ a)

end PlainUnless

/-! ## Texts -/

/-- The form of the operand alone makes its value a text, or one that the page stores and that may be a
text. -/
def canBeText : Operand → Bool
  | .text _ | .join _ _ | .letter _ _ | .size | .costumeName _ | .variable _ | .listText _ | .argument _ => true
  | _ => Bool.false

end Operand

/-- A page on which everything that is stored is one text. -/
def Moment.storing (language : Language) (s : String) : Moment where
  toLanguage := language
  x := .text s
  y := .text s
  direction := .text s
  mouseX := .text s
  mouseY := .text s
  mouseDown := false
  anyKeyDown := false
  keyDown _ := false
  touchingMouse := false
  size := .text s
  costumeName _ := s
  costumeIndex _ := 0
  stored _ := .text s
  items _ := [.text s]
  argument _ := .text s

/-- Where the form of an operand lets it be a text, it is one on some page, whatever the functions of the
language give. -/
theorem Operand.exists_text {operand : Operand} (can : operand.canBeText = true) (language : Language) :
    ∃ moment : Moment, moment.toLanguage = language ∧
      ∃ value, operand.Evaluates moment value ∧ value.isText = true := by
  obtain ⟨value, evaluates⟩ := operand.exists_evaluates (Moment.storing language "")
  refine ⟨_, rfl, value, evaluates, ?_⟩
  cases evaluates with
  | text | join | letter | size | costumeName | «variable» | listText | argument => rfl
  | _ => cases can

end ScratchPage
