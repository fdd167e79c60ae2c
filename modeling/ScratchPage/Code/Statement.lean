import ScratchPage.Code.Operand
import ScratchPage.Code.Writer

/-!
# Statements

The JavaScript statements that blocks become. Each block stands in braces of its own, so the names it
declares are visible to it alone. Every turn of a loop ends by waiting for the screen.
-/

namespace ScratchPage
set_option autoImplicit false

/-- Places that a sprite can go to without coordinates. -/
inductive Destination where
  | random
  | mouse
deriving DecidableEq, Repr

def Destination.code : Destination → String
  | .random => "Math.floor(Math.random() * 480 - 240), Math.floor(Math.random() * 360 - 180)"
  | .mouse => "mouseX - 240, 180 - mouseY"

/-- Graphic effects. -/
inductive Effect where
  | color
  | fisheye
  | whirl
  | pixelate
  | mosaic
  | brightness
  | ghost
deriving DecidableEq, Repr

namespace Effect

def name : Effect → String
  | .color => "color"
  | .fisheye => "fisheye"
  | .whirl => "whirl"
  | .pixelate => "pixelate"
  | .mosaic => "mosaic"
  | .brightness => "brightness"
  | .ghost => "ghost"

def all : List Effect := [.color, .fisheye, .whirl, .pixelate, .mosaic, .brightness, .ghost]

/-- The effect with a name, in any case of its letters. The letters of the names have no other
characters as upper-case forms than those of ASCII. -/
def ofName? (name : String) : Option Effect :=
  all.find? fun e => e.name.toList == name.toList.map Char.toLower

end Effect

/-- The end of the drawing order that a sprite moves to. -/
inductive Layer where
  | front
  | back
deriving DecidableEq, Repr

def Layer.method : Layer → String
  | .front => "push"
  | .back => "unshift"

/-- Statements that hold no other statements. -/
inductive Action where
  /-- A choice that has no code. -/
  | nothing
  /-- The place of a block that has no code. -/
  | unknown (opcode : String)
  /-- The call of a procedure that is not defined. -/
  | unresolvedCall
  | moveSteps (steps : Operand)
  | moveTo (x y : Operand)
  | goTo (destination : Destination)
  | changeX (dx : Operand)
  | changeY (dy : Operand)
  | setX (x : Operand)
  | setY (y : Operand)
  | turnLeft (degrees : Operand)
  | turnRight (degrees : Operand)
  | pointTowardsMouse
  | pointInDirection (angle : Operand)
  | setRotationStyle (style : String)
  | glideTo (seconds x y : Operand)
  | glideToDestination (seconds : Operand) (destination : Destination)
  | switchCostume (wearer : Wearer) (costume : Operand)
  | nextCostume (wearer : Wearer)
  | changeEffect (effect : Effect) (change : Operand)
  | setEffect (effect : Effect) (value : Operand)
  | clearEffects
  | changeSize (change : Operand)
  | setSize (percent : Operand)
  | setVisible (visible : Bool)
  | goToLayer (layer : Layer)
  | say (message seconds : Operand)
  | wait (seconds : Operand)
  | cloneSelf
  | deleteClone
  | setVariable (key : String) (value : Operand)
  | changeVariable (key : String) (change : Operand)
  | listAdd (key : String) (item : Operand)
  | listClear (key : String)
  | listInsert (key : String) (index item : Operand)
  | listReplace (key : String) (index item : Operand)
  | listDelete (key : String) (index : Operand)
  | broadcast (message : Operand)
  | broadcastAndWait (message : Operand)
  | call (code : String) (arguments : List Operand)

namespace Action

/-- The list and the position that a change of a list works on. -/
def listPlace (key : String) (index : Operand) : List Line :=
  [.plain ("const listRef = " ++ Operand.listCode key ++ ";"),
   .plain ("const index = " ++ index.code ++ " - 1;")]

/-- A line that is guarded by a condition. -/
def guarded (condition : String) (line : Code) : List Line :=
  [.opening ("if (" ++ condition ++ ") \x7b"), .plain line, .closing "\x7d"]

/-- The lines of an action. -/
def lines : Action → List Line
  | .nothing => []
  | .unknown opcode => [.remark ("Unknown block " ++ opcode)]
  | .unresolvedCall => [.remark "Unresolved procedure call"]
  | .moveSteps steps =>
    [.plain ("const steps = " ++ steps.code ++ ";"),
     .plain "this.changeXBy(Math.cos(this.direction * Math.PI / 180) * steps);",
     .plain "this.changeYBy(Math.sin(this.direction * Math.PI / 180) * steps);"]
  | .moveTo x y => [.plain ("this.moveTo(" ++ x.code ++ ", " ++ y.code ++ ");")]
  | .goTo destination => [.plain ("this.moveTo(" ++ destination.code ++ ");")]
  | .changeX dx => [.plain ("this.changeXBy(" ++ dx.code ++ ");")]
  | .changeY dy => [.plain ("this.changeYBy(" ++ dy.code ++ ");")]
  | .setX x => [.plain ("this.moveTo(" ++ x.code ++ ", 180 - this.y);")]
  | .setY y => [.plain ("this.moveTo(this.x - 240, " ++ y.code ++ ");")]
  | .turnLeft degrees => [.plain ("this.turn(" ++ degrees.code ++ ");")]
  | .turnRight degrees => [.plain ("this.turn(-(" ++ degrees.code ++ "));")]
  | .pointTowardsMouse => [.plain "this.pointTowardsMouse();"]
  | .pointInDirection angle =>
    [.plain ("const direction = " ++ angle.code ++ ";"),
     .plain "this.direction = (90 - direction > 0) ? (90 - direction) : (450 - direction);"]
  | .setRotationStyle style => [.plain ("this.rotationStyle = " ++ Code.quoted style ++ ";")]
  | .glideTo seconds x y =>
    [.plain ("await this.glideXYSecs(" ++ seconds.code ++ ", " ++ x.code ++ ", " ++ y.code ++ ");")]
  | .glideToDestination seconds destination =>
    [.plain ("await this.glideXYSecs(" ++ seconds.code ++ ", " ++ destination.code ++ ");")]
  | .switchCostume wearer costume =>
    [.plain (wearer.code ++ ".changeCostume(" ++ costume.code ++ ");")]
  | .nextCostume wearer => [.plain (wearer.code ++ ".nextCostume();")]
  | .changeEffect effect change =>
    [.plain ("this.effects[" ++ Code.quoted effect.name ++ "] += " ++ change.code ++ ";")]
  | .setEffect effect value =>
    [.plain ("this.effects[" ++ Code.quoted effect.name ++ "] = " ++ value.code ++ ";")]
  | .clearEffects =>
    [.opening "for (const effect in this.effects) \x7b", .plain "this.effects[effect] = 0;",
     .closing "\x7d"]
  | .changeSize change => [.plain ("this.size += " ++ change.code ++ ";")]
  | .setSize percent => [.plain ("this.size = " ++ percent.code ++ ";")]
  | .setVisible visible =>
    [.plain ("this.visible = " ++ (if visible then "true" else "false") ++ ";")]
  | .goToLayer layer =>
    guarded "renderList.includes(this)"
      ("renderList." ++ layer.method ++ "(renderList.splice(renderList.indexOf(this), 1)[0]);")
  | .say message seconds =>
    [.plain ("await this.sayAndWait(" ++ message.code ++ ", " ++ seconds.code ++ " * 1000);")]
  | .wait seconds =>
    [.plain ("await new Promise((resolve) => setTimeout(resolve, " ++ seconds.code ++ " * 1000));")]
  | .cloneSelf =>
    [.plain "const sprite = new (this.createSelf)(true, this.visible);",
     .plain "await sprite.waitForInit();", .plain "renderList.push(sprite);"]
  | .deleteClone =>
    guarded "this.isClone && renderList.includes(this)"
      "renderList.splice(renderList.indexOf(this), 1);" ++ [.plain "return;"]
  | .setVariable key value =>
    [.plain ("this.setVariable(" ++ Code.quoted key ++ ", " ++ value.code ++ ");")]
  | .changeVariable key change =>
    [.plain ("this.changeVariableBy(" ++ Code.quoted key ++ ", " ++ change.code ++ ");")]
  | .listAdd key item => [.plain (Operand.listCode key ++ ".push(" ++ item.code ++ ");")]
  | .listClear key => [.plain (Operand.listCode key ++ ".length = 0;")]
  | .listInsert key index item =>
    listPlace key index ++
      guarded "index >= 0 && index <= listRef.length" ("listRef.splice(index, 0, " ++ item.code ++ ");")
  | .listReplace key index item =>
    listPlace key index ++
      guarded "index >= 0 && index < listRef.length" ("listRef[index] = " ++ item.code ++ ";")
  | .listDelete key index =>
    listPlace key index ++ guarded "index >= 0 && index < listRef.length" "listRef.splice(index, 1);"
  | .broadcast message => [.plain ("pendingBroadcasts.add(" ++ message.code ++ ");")]
  | .broadcastAndWait message => [.plain ("await handleBroadcastSync(" ++ message.code ++ ");")]
  | .call code arguments =>
    [.plain ("const procInfo = this.definedProcedures.get(" ++ Code.quoted code ++ ");"),
     .opening "const methodArgs = ["] ++
    arguments.map (fun a => .plain (a.code ++ ",")) ++
    [.closing "];"] ++
    guarded "procInfo" "await (procInfo.method)(methodArgs, procInfo.argumentnames);"

end Action

/-- A statement that a block becomes. -/
inductive Statement where
  | action (act : Action)
  | forever (body : List Statement)
  | repeatTimes (times : Operand) (body : List Statement)
  | repeatUntil (condition : Operand) (body : List Statement)
  | waitUntil (condition : Operand)
  | branch (condition : Operand) (body : List Statement)
  | branchElse (condition : Operand) (body other : List Statement)

/-- Waits until the screen has been drawn. -/
def screenRefresh : String := "await this.screenRefresh();"

/-- A loop with its head, its body and what it does at the end of each turn. -/
def loopLines (head : Code) (body : List Line) : List Line :=
  [.opening head] ++ body ++ [.plain screenRefresh, .closing "\x7d"]

namespace Statement

/-- The head of a loop that runs until a condition holds. -/
def untilHead (condition : Operand) : Code := "while (!(" ++ condition.code ++ ")) \x7b"

/-- The head of a conditional. -/
def branchHead (condition : Operand) : Code := "if (" ++ condition.code ++ ") \x7b"

/-- Lines in braces of their own. -/
def inBraces (lines : List Line) : List Line := [.opening "\x7b"] ++ lines ++ [.closing "\x7d"]

mutual

/-- The lines of a statement between its braces. -/
def bodyLines : Statement → List Line
  | .action act => act.lines
  | .forever body => loopLines "while (true) \x7b" (chainLines body)
  | .repeatTimes times body =>
    [.plain ("const _times = " ++ times.code ++ ";"), .plain "let _i = 0;"] ++
      loopLines "while (_i < _times) \x7b" (chainLines body ++ [.plain "_i++;"])
  | .repeatUntil condition body => loopLines (untilHead condition) (chainLines body)
  | .waitUntil condition => loopLines (untilHead condition) []
  | .branch condition body =>
    [.opening (branchHead condition)] ++ chainLines body ++ [.closing "\x7d"]
  | .branchElse condition body other =>
    [.opening (branchHead condition)] ++ chainLines body ++ [.switching "\x7d else \x7b"] ++
      chainLines other ++ [.closing "\x7d"]

/-- The lines of statements one after the other. -/
def chainLines : List Statement → List Line
  | [] => []
  | statement :: rest => inBraces (bodyLines statement) ++ chainLines rest

end

/-- The lines of a statement. -/
def lines (statement : Statement) : List Line := inBraces (bodyLines statement)

end Statement

end ScratchPage
