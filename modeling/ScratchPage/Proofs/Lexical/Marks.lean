import ScratchPage.Proofs.Lexical.Descriptor

/-!
# What statements hold

The operands of a statement that need attention are its marks: the places of blocks without code and
the arguments that are read. Besides, a statement names the procedures that it calls, and a script the
procedure that it is.
-/

namespace ScratchPage
set_option autoImplicit false

/-! ## Marks -/

/-- What an operand or a statement leaves to the code around it. -/
inductive Mark where
  /-- The place of a block that has no code. -/
  | gap
  /-- An argument of the procedure that is running. -/
  | argument (name : String)
deriving DecidableEq, Repr

/-- The marks of an operand, at any depth. -/
def Operand.marks : Operand → List Mark
  | .missing _ => [.gap]
  | .argument name => [.argument name]
  | .binary _ left right => left.marks ++ right.marks
  | .not operand => operand.marks
  | .math _ operand => operand.marks
  | .randomBetween low high => low.marks ++ high.marks
  | .join left right => left.marks ++ right.marks
  | .contains whole part => whole.marks ++ part.marks
  | .length whole => whole.marks
  | .letter index whole => whole.marks ++ index.marks
  | .listItem _ index => index.marks
  | .listIndex _ item => item.marks
  | .listContains _ item => item.marks
  | .asNumber reading => reading.marks
  | _ => []

/-- The operands of an action. -/
def Action.operands : Action → List Operand
  | .moveSteps steps => [steps]
  | .moveTo x y => [x, y]
  | .changeX dx => [dx]
  | .changeY dy => [dy]
  | .setX x => [x]
  | .setY y => [y]
  | .turnLeft degrees => [degrees]
  | .turnRight degrees => [degrees]
  | .pointInDirection angle => [angle]
  | .glideTo seconds x y => [seconds, x, y]
  | .glideToDestination seconds _ => [seconds]
  | .switchCostume _ costume => [costume]
  | .changeEffect _ change => [change]
  | .setEffect _ value => [value]
  | .changeSize change => [change]
  | .setSize percent => [percent]
  | .say message seconds => [message, seconds]
  | .wait seconds => [seconds]
  | .setVariable _ value => [value]
  | .changeVariable _ change => [change]
  | .listAdd _ item => [item]
  | .listInsert _ index item => [index, item]
  | .listReplace _ index item => [index, item]
  | .listDelete _ index => [index]
  | .broadcast message => [message]
  | .broadcastAndWait message => [message]
  | .call _ arguments => arguments
  | _ => []

/-- The marks of an action. -/
def Action.marks : Action → List Mark
  | .nothing => [.gap]
  | .unknown _ => [.gap]
  | .unresolvedCall => [.gap]
  | act => act.operands.flatMap Operand.marks

mutual

/-- The marks of a statement, at any depth. -/
def Statement.marks : Statement → List Mark
  | .action act => act.marks
  | .forever body => chainMarks body
  | .repeatTimes times body => times.marks ++ chainMarks body
  | .repeatUntil condition body => condition.marks ++ chainMarks body
  | .waitUntil condition => condition.marks
  | .branch condition body => condition.marks ++ chainMarks body
  | .branchElse condition body other => condition.marks ++ (chainMarks body ++ chainMarks other)

/-- The marks of statements. -/
def Statement.chainMarks : List Statement → List Mark
  | [] => []
  | statement :: rest => statement.marks ++ chainMarks rest

end

/-- The marks of a script. -/
def Script.marks (script : Script) : List Mark := Statement.chainMarks script.body

/-- The signature of the procedure that a script is, if it is one. -/
def Script.signature? : Script → Option Signature
  | .procedure signature _ => some signature
  | _ => none

/-- The script reads only arguments that its procedure has. -/
def Script.ReadsOwn (script : Script) : Prop :=
  ∀ name, .argument name ∈ script.marks → ∃ signature, script.signature? = some signature ∧
    name ∈ signature.argumentNames

/-! ## Procedures -/

/-- The code of the procedure that an action calls. -/
def Action.calls : Action → List String
  | .call code _ => [code]
  | _ => []

mutual

/-- The codes of the procedures that a statement calls, at any depth. -/
def Statement.calls : Statement → List String
  | .action act => act.calls
  | .forever body => chainCalls body
  | .repeatTimes _ body => chainCalls body
  | .repeatUntil _ body => chainCalls body
  | .waitUntil _ => []
  | .branch _ body => chainCalls body
  | .branchElse _ body other => chainCalls body ++ chainCalls other

/-- The codes of the procedures that statements call. -/
def Statement.chainCalls : List Statement → List String
  | [] => []
  | statement :: rest => statement.calls ++ chainCalls rest

end

namespace Script

/-- The codes of the procedures that a script calls. -/
def calls (script : Script) : List String := Statement.chainCalls script.body

/-- The code of the procedure that a script defines. -/
def defines : Script → List String
  | .procedure signature _ => [signature.code]
  | _ => []

end Script

end ScratchPage
