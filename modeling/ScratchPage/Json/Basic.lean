import ScratchPage.Decimal.Binary
import ScratchPage.Text.Keyed

/-!
# JSON values

A number is an integer or a double; an integer lies between `-2 ^ 63` and `2 ^ 64 - 1`. The fields of
an object are sorted by key and no key occurs twice.
-/

namespace ScratchPage
set_option autoImplicit false

/-- A JSON number: an integer token that fits 64 bits, or a double. -/
inductive Json.Number where
  | int (value : Int)
  | double (value : Float)

/-- A JSON value. -/
inductive Json where
  | null
  | bool (value : Bool)
  | number (value : Json.Number)
  | string (value : String)
  | array (items : List Json)
  | object (fields : List (String × Json))

namespace Json

instance : Inhabited Json := ⟨.null⟩

/-- The number as the nearest double. -/
def Number.toFloat : Number → Float
  | .int i => Binary.ofInt i
  | .double f => f

/-- The number as a signed 64-bit integer; doubles and larger integers have none. -/
def Number.toInt64? : Number → Option Int
  | .int i => if -0x8000000000000000 ≤ i ∧ i < 0x8000000000000000 then some i else none
  | .double _ => none

def asBool? : Json → Option Bool
  | .bool b => some b
  | _ => none

def asString? : Json → Option String
  | .string s => some s
  | _ => none

def asArray? : Json → Option (List Json)
  | .array items => some items
  | _ => none

def asObject? : Json → Option (List (String × Json))
  | .object fields => some fields
  | _ => none

def asFloat? : Json → Option Float
  | .number n => some n.toFloat
  | _ => none

def asInt64? : Json → Option Int
  | .number n => n.toInt64?
  | _ => none

/-- The value of a field; values that are not objects have no fields. -/
def get? (value : Json) (key : String) : Option Json :=
  match value with
  | .object fields => Keyed.find? fields key
  | _ => none

/-- A double as a JSON number. -/
def ofFloat (f : Float) : Json := .number (.double f)

end Json

end ScratchPage
