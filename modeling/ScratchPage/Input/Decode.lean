import ScratchPage.Error

/-!
# Reading inputs

An input is stored as `[state, payload, shadow?]` with a state from 1 to 3; state 3 says that the
payload covers the shadow. A payload is null, the id of a block, or an array with a type code, a
text and, for variables and lists, an id.
-/

namespace ScratchPage
set_option autoImplicit false

/-- Reads a payload. -/
def Payload.ofJson (payload : Json) : Except InputFault Payload :=
  match payload with
  | .null => .ok .empty
  | .string id => .ok (.block ⟨id⟩)
  | .array items =>
    match items[0]?.bind Json.asInt64? with
    | none => .error (.noTypeCode payload)
    | some code =>
      match items[1]?.bind Json.plainText? with
      | none => .error (.noValue payload)
      | some text =>
        let id := items[2]?.bind Json.asString?
        if code = 12 then .ok (.variable text id)
        else if code = 13 then .ok (.list text id)
        else
          match LiteralKind.ofCode? code with
          | some kind => .ok (.literal kind text)
          | none => .error (.unknownType code)
  | _ => .error (.unexpectedPayload payload)

/-- The shadow under a block, when the state says that the block covers one. -/
def Input.shadowOf (state : Int) (covered : Option Json) : Except InputFault (Option Payload) :=
  match covered with
  | some json =>
    if state = 3 then
      match Payload.ofJson json with
      | .ok .empty => .ok none
      | .ok shadow => .ok (some shadow)
      | .error fault => .error fault
    else .ok none
  | none => .ok none

/-- Reads an input. -/
def Input.ofJson (json : Json) : Except InputFault Input :=
  match json with
  | .array (first :: second :: rest) =>
    let state := first.asInt64?.getD 0
    if 1 ≤ state ∧ state ≤ 3 then
      match Payload.ofJson second with
      | .error fault => .error fault
      | .ok (.block id) =>
        match Input.shadowOf state rest.head? with
        | .ok shadow => .ok ⟨.block id, shadow⟩
        | .error fault => .error fault
      | .ok payload => .ok ⟨payload, none⟩
    else .error (.unknownState first)
  | .array items => .error (.tooShort items.length)
  | _ => .error (.notArray json)

end ScratchPage
