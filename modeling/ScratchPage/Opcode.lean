/-!
# Opcodes

The opcodes of a project file by category. An opcode outside the tables is kept by its name.
-/

namespace ScratchPage
set_option autoImplicit false

/-- Blocks that start a script. -/
inductive Hat where
  | whenFlagClicked
  | whenBroadcastReceived
  | startAsClone
  | defineProcedure
  | whenThisSpriteClicked
  | whenStageClicked
  | whenKeyPressed
  | whenBackdropSwitchesTo
  | whenGreaterThan
deriving DecidableEq, Repr

namespace Hat

/-- The opcode in project files. -/
def name : Hat → String
  | .whenFlagClicked => "event_whenflagclicked"
  | .whenBroadcastReceived => "event_whenbroadcastreceived"
  | .startAsClone => "control_start_as_clone"
  | .defineProcedure => "procedures_definition"
  | .whenThisSpriteClicked => "event_whenthisspriteclicked"
  | .whenStageClicked => "event_whenstageclicked"
  | .whenKeyPressed => "event_whenkeypressed"
  | .whenBackdropSwitchesTo => "event_whenbackdropswitchesto"
  | .whenGreaterThan => "event_whengreaterthan"

def all : List Hat :=
  [.whenFlagClicked, .whenBroadcastReceived, .startAsClone, .defineProcedure,
   .whenThisSpriteClicked, .whenStageClicked, .whenKeyPressed, .whenBackdropSwitchesTo,
   .whenGreaterThan]

end Hat

/-- Blocks that do something and have a place in a chain. -/
inductive Command where
  | moveSteps
  | goToXY
  | goTo
  | changeXBy
  | changeYBy
  | setX
  | setY
  | turnLeft
  | turnRight
  | pointTowards
  | pointInDirection
  | setRotationStyle
  | glideToXY
  | glideTo
  | switchCostumeTo
  | switchBackdropTo
  | nextCostume
  | nextBackdrop
  | changeEffectBy
  | setEffectTo
  | clearGraphicEffects
  | changeSizeBy
  | setSizeTo
  | showSprite
  | hideSprite
  | goToFrontBack
  | sayForSeconds
  | wait
  | forever
  | repeatTimes
  | repeatUntil
  | waitUntil
  | branch
  | branchElse
  | createCloneOf
  | deleteThisClone
  | setVariableTo
  | changeVariableBy
  | addToList
  | deleteOfList
  | deleteAllOfList
  | insertAtList
  | replaceItemOfList
  | broadcast
  | broadcastAndWait
  | callProcedure
deriving DecidableEq, Repr

namespace Command

/-- The opcode in project files. -/
def name : Command → String
  | .moveSteps => "motion_movesteps"
  | .goToXY => "motion_gotoxy"
  | .goTo => "motion_goto"
  | .changeXBy => "motion_changexby"
  | .changeYBy => "motion_changeyby"
  | .setX => "motion_setx"
  | .setY => "motion_sety"
  | .turnLeft => "motion_turnleft"
  | .turnRight => "motion_turnright"
  | .pointTowards => "motion_pointtowards"
  | .pointInDirection => "motion_pointindirection"
  | .setRotationStyle => "motion_setrotationstyle"
  | .glideToXY => "motion_glidesecstoxy"
  | .glideTo => "motion_glideto"
  | .switchCostumeTo => "looks_switchcostumeto"
  | .switchBackdropTo => "looks_switchbackdropto"
  | .nextCostume => "looks_nextcostume"
  | .nextBackdrop => "looks_nextbackdrop"
  | .changeEffectBy => "looks_changeeffectby"
  | .setEffectTo => "looks_seteffectto"
  | .clearGraphicEffects => "looks_cleargraphiceffects"
  | .changeSizeBy => "looks_changesizeby"
  | .setSizeTo => "looks_setsizeto"
  | .showSprite => "looks_show"
  | .hideSprite => "looks_hide"
  | .goToFrontBack => "looks_gotofrontback"
  | .sayForSeconds => "looks_sayforsecs"
  | .wait => "control_wait"
  | .forever => "control_forever"
  | .repeatTimes => "control_repeat"
  | .repeatUntil => "control_repeat_until"
  | .waitUntil => "control_wait_until"
  | .branch => "control_if"
  | .branchElse => "control_if_else"
  | .createCloneOf => "control_create_clone_of"
  | .deleteThisClone => "control_delete_this_clone"
  | .setVariableTo => "data_setvariableto"
  | .changeVariableBy => "data_changevariableby"
  | .addToList => "data_addtolist"
  | .deleteOfList => "data_deleteoflist"
  | .deleteAllOfList => "data_deletealloflist"
  | .insertAtList => "data_insertatlist"
  | .replaceItemOfList => "data_replaceitemoflist"
  | .broadcast => "event_broadcast"
  | .broadcastAndWait => "event_broadcastandwait"
  | .callProcedure => "procedures_call"

def all : List Command :=
  [.moveSteps, .goToXY, .goTo, .changeXBy, .changeYBy, .setX, .setY, .turnLeft, .turnRight,
   .pointTowards, .pointInDirection, .setRotationStyle, .glideToXY, .glideTo, .switchCostumeTo,
   .switchBackdropTo, .nextCostume, .nextBackdrop, .changeEffectBy, .setEffectTo,
   .clearGraphicEffects, .changeSizeBy, .setSizeTo, .showSprite, .hideSprite, .goToFrontBack,
   .sayForSeconds, .wait, .forever, .repeatTimes, .repeatUntil, .waitUntil, .branch, .branchElse,
   .createCloneOf, .deleteThisClone, .setVariableTo, .changeVariableBy, .addToList, .deleteOfList,
   .deleteAllOfList, .insertAtList, .replaceItemOfList, .broadcast, .broadcastAndWait,
   .callProcedure]

end Command

/-- Blocks that give a value. -/
inductive Reporter where
  | and
  | or
  | not
  | equals
  | greater
  | less
  | add
  | subtract
  | multiply
  | divide
  | modulo
  | round
  | random
  | mathFunction
  | join
  | contains
  | length
  | letterOf
  | xPosition
  | yPosition
  | direction
  | mouseX
  | mouseY
  | mouseDown
  | keyPressed
  | touchingObject
  | size
  | costumeNumberName
  | backdropNumberName
  | variable
  | listContents
  | itemOfList
  | itemNumOfList
  | listContainsItem
  | lengthOfList
  | argumentStringNumber
  | argumentBoolean
deriving DecidableEq, Repr

namespace Reporter

/-- The opcode in project files. -/
def name : Reporter → String
  | .and => "operator_and"
  | .or => "operator_or"
  | .not => "operator_not"
  | .equals => "operator_equals"
  | .greater => "operator_gt"
  | .less => "operator_lt"
  | .add => "operator_add"
  | .subtract => "operator_subtract"
  | .multiply => "operator_multiply"
  | .divide => "operator_divide"
  | .modulo => "operator_mod"
  | .round => "operator_round"
  | .random => "operator_random"
  | .mathFunction => "operator_mathop"
  | .join => "operator_join"
  | .contains => "operator_contains"
  | .length => "operator_length"
  | .letterOf => "operator_letter_of"
  | .xPosition => "motion_xposition"
  | .yPosition => "motion_yposition"
  | .direction => "motion_direction"
  | .mouseX => "sensing_mousex"
  | .mouseY => "sensing_mousey"
  | .mouseDown => "sensing_mousedown"
  | .keyPressed => "sensing_keypressed"
  | .touchingObject => "sensing_touchingobject"
  | .size => "looks_size"
  | .costumeNumberName => "looks_costumenumbername"
  | .backdropNumberName => "looks_backdropnumbername"
  | .variable => "data_variable"
  | .listContents => "data_listcontents"
  | .itemOfList => "data_itemoflist"
  | .itemNumOfList => "data_itemnumoflist"
  | .listContainsItem => "data_listcontainsitem"
  | .lengthOfList => "data_lengthoflist"
  | .argumentStringNumber => "argument_reporter_string_number"
  | .argumentBoolean => "argument_reporter_boolean"

def all : List Reporter :=
  [.and, .or, .not, .equals, .greater, .less, .add, .subtract, .multiply, .divide, .modulo, .round,
   .random, .mathFunction, .join, .contains, .length, .letterOf, .xPosition, .yPosition,
   .direction, .mouseX, .mouseY, .mouseDown, .keyPressed, .touchingObject, .size,
   .costumeNumberName, .backdropNumberName, .variable, .listContents, .itemOfList, .itemNumOfList,
   .listContainsItem, .lengthOfList, .argumentStringNumber, .argumentBoolean]

end Reporter

/-- Blocks that hold the choice made in a menu. -/
inductive Menu where
  | goTo
  | glideTo
  | pointTowards
  | costume
  | backdrop
  | key
  | touchingObject
  | cloneOf
  | broadcast
deriving DecidableEq, Repr

namespace Menu

/-- The opcode in project files. -/
def name : Menu → String
  | .goTo => "motion_goto_menu"
  | .glideTo => "motion_glideto_menu"
  | .pointTowards => "motion_pointtowards_menu"
  | .costume => "looks_costume"
  | .backdrop => "looks_backdrops"
  | .key => "sensing_keyoptions"
  | .touchingObject => "sensing_touchingobjectmenu"
  | .cloneOf => "control_create_clone_of_menu"
  | .broadcast => "event_broadcast_menu"

def all : List Menu :=
  [.goTo, .glideTo, .pointTowards, .costume, .backdrop, .key, .touchingObject, .cloneOf, .broadcast]

end Menu

/-- The field in which a menu block holds its choice. -/
def Menu.field : Menu → String
  | .goTo => "TO"
  | .glideTo => "TO"
  | .pointTowards => "TOWARDS"
  | .costume => "COSTUME"
  | .backdrop => "BACKDROP"
  | .key => "KEY_OPTION"
  | .touchingObject => "TOUCHINGOBJECTMENU"
  | .cloneOf => "CLONE_OPTION"
  | .broadcast => "BROADCAST_OPTION"

/-- An opcode by category. -/
inductive Opcode where
  | hat (op : Hat)
  | command (op : Command)
  | reporter (op : Reporter)
  | menu (op : Menu)
  | prototype
  | unknown (name : String)
deriving DecidableEq, Repr

namespace Opcode

/-- The opcode of the block that carries the signature of a procedure. -/
def prototypeName : String := "procedures_prototype"

/-- The opcode as it stands in project files. -/
def name : Opcode → String
  | .hat op => op.name
  | .command op => op.name
  | .reporter op => op.name
  | .menu op => op.name
  | .prototype => prototypeName
  | .unknown name => name

/-- The opcode with a given name. -/
def ofName (name : String) : Opcode :=
  match Command.all.find? (·.name == name) with
  | some op => .command op
  | none =>
    match Reporter.all.find? (·.name == name) with
    | some op => .reporter op
    | none =>
      match Hat.all.find? (·.name == name) with
      | some op => .hat op
      | none =>
        match Menu.all.find? (·.name == name) with
        | some op => .menu op
        | none => if name = prototypeName then .prototype else .unknown name

/-- The families whose blocks are often left lying on the canvas outside any script. -/
def looseFamilies : List String :=
  ["motion_", "looks_", "sound_", "control_", "sensing_", "operator_", "data_", "procedures_",
   "argument_"]

/-- The opcode belongs to a family of loose blocks. -/
def isLoose (op : Opcode) : Bool := looseFamilies.any fun family => family.toList.isPrefixOf op.name.toList

end Opcode

end ScratchPage
