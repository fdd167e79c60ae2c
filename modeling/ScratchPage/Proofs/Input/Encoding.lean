import Mathlib.Tactic.SplitIfs
import ScratchPage.Proofs.Block.References

/-!
# The stored form of inputs

Which JSON values are inputs is said here as a grammar, without the reader: a payload is null, a text, or
an array that begins with a type code and a plain value; an input is a state from 1 to 3 with a payload
and, under a covering block, a second payload. The reader accepts these values and no others
(`ofJson_payload_iff`, `ofJson_input_iff`). Inputs are written back in one canonical form, which is read
as the input that was written (`ofJson_toJson`), so every input in which a block covers something, or
nothing does, can be stored.
-/

namespace ScratchPage
set_option autoImplicit false

/-! ## The grammar -/

/-- A text, a number or a boolean. -/
inductive Json.IsPlain : Json → Prop
  | string (value : String) : IsPlain (.string value)
  | number (value : Json.Number) : IsPlain (.number value)
  | bool (value : Bool) : IsPlain (.bool value)

/-- An integer. -/
def Json.ofInt (i : Int) : Json := .number (.int i)

/-- The values that payloads are read from. The type codes 4 to 11 stand for literals, 12 for variables and
13 for lists; what follows the plain value does not matter. -/
inductive IsPayload : Json → Prop
  | empty : IsPayload .null
  | block (id : String) : IsPayload (.string id)
  | primitive {code : Int} {value : Json} {more : List Json} :
      4 ≤ code → code ≤ 13 → value.IsPlain → IsPayload (.array (.ofInt code :: value :: more))

/-- The values that inputs are read from. What follows the payload matters only where the state says that
the payload covers it and the payload is a block. -/
inductive IsInput : Json → Prop
  | mk {state : Int} {payload : Json} {more : List Json} : 1 ≤ state → state ≤ 3 → IsPayload payload →
      (state = 3 → ∀ id, payload = .string id → ∀ covered ∈ more.head?, IsPayload covered) →
      IsInput (.array (.ofInt state :: payload :: more))

/-- Only a block covers anything, and what it covers is not nothing. -/
structure Input.IsNormal (input : Input) : Prop where
  proper : input.Proper
  shadow_ne : input.shadow ≠ some .empty

/-! ## The canonical form -/

/-- The type code of a kind of literals. -/
def LiteralKind.code : LiteralKind → Int
  | .number => 4
  | .positiveNumber => 5
  | .positiveInteger => 6
  | .integer => 7
  | .angle => 8
  | .color => 9
  | .string => 10
  | .broadcast => 11

def Payload.toJson : Payload → Json
  | .empty => .null
  | .literal kind raw => .array [.ofInt kind.code, .string raw]
  | .block id => .string id.name
  | .variable name id => .array (.ofInt 12 :: .string name :: (id.map Json.string).toList)
  | .list name id => .array (.ofInt 13 :: .string name :: (id.map Json.string).toList)

/-- The state of an input: a literal shows itself, a block fills or covers its slot, and a reading covers
it. -/
def Input.state (input : Input) : Int :=
  match input.payload, input.shadow with
  | .empty, _ => 1
  | .literal .., _ => 1
  | .block _, none => 2
  | .block _, some _ => 3
  | .variable .., _ => 3
  | .list .., _ => 3

def Input.toJson (input : Input) : Json :=
  .array (.ofInt input.state :: input.payload.toJson :: (input.shadow.map Payload.toJson).toList)

/-! ## Reading payloads -/

/-- Only a number in the form of an integer is read as one. -/
theorem Json.asInt64?_eq_some {json : Json} {i : Int} (isInt : json.asInt64? = some i) : json = .ofInt i := by
  cases json with
  | number n =>
    cases n with
    | int j =>
      simp only [asInt64?, Number.toInt64?, Option.ite_none_right_eq_some, Option.some.injEq] at isInt
      rw [Json.ofInt, isInt.2]
    | double f => cases isInt
  | null | bool | string | array | object => cases isInt

theorem Json.asInt64?_ofInt {i : Int} (low : 0 ≤ i) (high : i ≤ 13) : (Json.ofInt i).asInt64? = some i := by
  have range : -0x8000000000000000 ≤ i ∧ i < 0x8000000000000000 := by omega
  simp only [Json.ofInt, asInt64?, Number.toInt64?, range, and_self, if_true]

/-- The values with a plain text are the texts, the numbers and the booleans. -/
theorem Json.exists_plainText?_iff {json : Json} : (∃ text, json.plainText? = some text) ↔ json.IsPlain := by
  constructor
  · rintro ⟨text, isText⟩
    cases json with
    | string value => exact .string value
    | number value => exact .number value
    | bool value => exact .bool value
    | null | array | object => cases isText
  · intro plain
    cases plain <;> exact ⟨_, rfl⟩

theorem LiteralKind.ofCode?_code (kind : LiteralKind) : ofCode? kind.code = some kind := by
  cases kind <;> rfl

theorem LiteralKind.code_of_ofCode? {code : Int} {kind : LiteralKind} (known : ofCode? code = some kind) :
    kind.code = code := by
  unfold ofCode? at known
  split_ifs at known with h4 h5 h6 h7 h8 h9 h10 h11
  all_goals
    cases known
    symm
    assumption

/-- The codes of literals are the numbers from four to eleven. -/
theorem LiteralKind.exists_ofCode?_iff (code : Int) :
    (∃ kind, ofCode? code = some kind) ↔ 4 ≤ code ∧ code ≤ 11 := by
  constructor
  · rintro ⟨kind, known⟩
    rw [← code_of_ofCode? known]
    cases kind <;> decide
  · rintro ⟨low, high⟩
    unfold ofCode?
    split_ifs
    all_goals first | exact ⟨_, rfl⟩ | omega

/-- An array is read as a payload by its type code, its value and its id. -/
theorem Payload.ofJson_array {code : Int} {value : Json} {text : String} (more : List Json) (low : 0 ≤ code)
    (high : code ≤ 13) (plain : value.plainText? = some text) :
    Payload.ofJson (.array (.ofInt code :: value :: more)) =
      if code = 12 then .ok (.variable text (more.head?.bind Json.asString?))
      else if code = 13 then .ok (.list text (more.head?.bind Json.asString?))
      else
        match LiteralKind.ofCode? code with
        | some kind => .ok (.literal kind text)
        | none => .error (.unknownType code) := by
  cases kind : LiteralKind.ofCode? code <;>
    simp only [Payload.ofJson, ← List.head?_eq_getElem?, List.getElem?_cons_succ, List.head?_cons,
      Option.bind_some, Json.asInt64?_ofInt low high, plain, kind]

/-- The reader accepts the payloads of the grammar and nothing else. -/
theorem ofJson_payload_iff {json : Json} : (∃ payload, Payload.ofJson json = .ok payload) ↔ IsPayload json := by
  constructor
  · rintro ⟨payload, read⟩
    cases json with
    | null => exact .empty
    | string id => exact .block id
    | array items =>
      unfold Payload.ofJson at read
      cases hcode : items[0]?.bind Json.asInt64? with
      | none => simp [hcode] at read
      | some code =>
        cases hvalue : items[1]?.bind Json.plainText? with
        | none => simp [hcode, hvalue] at read
        | some text =>
          obtain ⟨first, isFirst, isInt⟩ := Option.bind_eq_some_iff.1 hcode
          obtain ⟨value, isValue, plain⟩ := Option.bind_eq_some_iff.1 hvalue
          obtain ⟨more, rfl⟩ : ∃ more, items = first :: value :: more := by
            match items, isFirst, isValue with
            | _ :: _ :: more, rfl, rfl => exact ⟨more, rfl⟩
          obtain rfl := Json.asInt64?_eq_some isInt
          simp only [hcode, hvalue] at read
          have range : 4 ≤ code ∧ code ≤ 13 := by
            split_ifs at read with isVariable isList
            · omega
            · omega
            · cases known : LiteralKind.ofCode? code with
              | none => simp [known] at read
              | some kind =>
                have literal := (LiteralKind.exists_ofCode?_iff code).1 ⟨kind, known⟩
                omega
          exact .primitive range.1 range.2 (Json.exists_plainText?_iff.1 ⟨text, plain⟩)
    | bool | number | object => cases read
  · intro grammar
    cases grammar with
    | empty => exact ⟨_, rfl⟩
    | block id => exact ⟨_, rfl⟩
    | @primitive code value more low high isPlain =>
      obtain ⟨text, plain⟩ := Json.exists_plainText?_iff.2 isPlain
      rw [Payload.ofJson_array more (by omega) high plain]
      split_ifs with isVariable isList
      · exact ⟨_, rfl⟩
      · exact ⟨_, rfl⟩
      · obtain ⟨kind, known⟩ := (LiteralKind.exists_ofCode?_iff code).2 (by omega)
        exact ⟨.literal kind text, by rw [known]⟩

/-- Only texts are read as blocks. -/
theorem Payload.eq_string_of_ofJson {json : Json} {id : BlockId} (read : Payload.ofJson json = .ok (.block id)) :
    json = .string id.name := by
  cases ofJson_payload_iff.1 ⟨_, read⟩ with
  | empty => cases read
  | block name =>
    cases read
    rfl
  | @primitive code value more _ high plain =>
    obtain ⟨text, isText⟩ := Json.exists_plainText?_iff.2 plain
    rw [Payload.ofJson_array more (by omega) high isText] at read
    split_ifs at read
    · cases read
    · cases read
    · split at read <;> cases read

/-! ## Reading inputs -/

/-- What is covered is read only under state 3, and then it is not nothing. -/
theorem Input.shadowOf_eq_ok {state : Int} {covered : Option Json} {shadow : Option Payload}
    (read : Input.shadowOf state covered = .ok shadow) :
    shadow ≠ some .empty ∧ (state = 3 → ∀ json ∈ covered, IsPayload json) := by
  unfold Input.shadowOf at read
  cases covered with
  | none =>
    cases read
    exact ⟨nofun, fun _ _ mem => nomatch mem⟩
  | some json =>
    simp only at read
    split_ifs at read with covers
    · cases held : Payload.ofJson json with
      | error fault => simp [held] at read
      | ok payload =>
        refine ⟨?_, fun _ other mem => Option.some.inj mem ▸ ofJson_payload_iff.1 ⟨payload, held⟩⟩
        rw [held] at read
        cases payload with
        | empty =>
          cases read
          nofun
        | literal | block | «variable» | list =>
          cases read
          nofun
    · cases read
      exact ⟨nofun, fun same => absurd same covers⟩

/-- A shadow is read wherever the grammar asks for one. -/
theorem Input.exists_shadowOf {state : Int} {covered : Option Json}
    (grammar : state = 3 → ∀ json ∈ covered, IsPayload json) :
    ∃ shadow, Input.shadowOf state covered = .ok shadow := by
  unfold Input.shadowOf
  cases covered with
  | none => exact ⟨_, rfl⟩
  | some json =>
    simp only
    split_ifs with covers
    · obtain ⟨payload, held⟩ := ofJson_payload_iff.2 (grammar covers json rfl)
      rw [held]
      cases payload <;> exact ⟨_, rfl⟩
    · exact ⟨_, rfl⟩

/-- An array is read as an input by its state, its payload and, under a block, what the block covers. -/
theorem Input.ofJson_array {state : Int} (payload : Json) (more : List Json) (low : 1 ≤ state) (high : state ≤ 3) :
    Input.ofJson (.array (.ofInt state :: payload :: more)) =
      (Payload.ofJson payload).bind fun held =>
        match held with
        | .block id => (Input.shadowOf state more.head?).map (⟨.block id, ·⟩)
        | _ => .ok ⟨held, none⟩ := by
  have given : ((Json.ofInt state).asInt64?).getD 0 = state := by
    rw [Json.asInt64?_ofInt (by omega) (by omega), Option.getD_some]
  simp only [Input.ofJson, given, low, high, and_self, if_true]
  cases Payload.ofJson payload with
  | error fault => rfl
  | ok held =>
    cases held with
    | block id =>
      simp only [Except.bind]
      cases Input.shadowOf state more.head? <;> rfl
    | empty | literal | «variable» | list => rfl

/-- What was read as an input is an array with a state, a payload and, under a block, what it covers. -/
theorem Input.ofJson_eq_ok {json : Json} {input : Input} (read : Input.ofJson json = .ok input) :
    ∃ state payload more, 1 ≤ state ∧ state ≤ 3 ∧ json = .array (.ofInt state :: payload :: more) ∧
      Payload.ofJson payload = .ok input.payload ∧
      ((∃ id, input.payload = .block id) ∧ Input.shadowOf state more.head? = .ok input.shadow ∨
        (∀ id, input.payload ≠ .block id) ∧ input.shadow = none) := by
  obtain ⟨state, payload, more, low, high, rfl⟩ : ∃ state payload more, 1 ≤ state ∧ state ≤ 3 ∧
      json = .array (.ofInt state :: payload :: more) := by
    unfold Input.ofJson at read
    split at read
    · next first payload more =>
      simp only at read
      split_ifs at read with range
      cases isInt : first.asInt64? with
      | none => simp [isInt] at range
      | some state =>
        rw [isInt, Option.getD_some] at range
        exact ⟨state, payload, more, range.1, range.2, by rw [Json.asInt64?_eq_some isInt]⟩
    · cases read
    · cases read
  rw [Input.ofJson_array payload more low high] at read
  refine ⟨state, payload, more, low, high, rfl, ?_⟩
  cases held : Payload.ofJson payload with
  | error fault => simp [held, Except.bind] at read
  | ok content =>
    simp only [held, Except.bind] at read
    cases content with
    | block id =>
      cases shadow : Input.shadowOf state more.head? with
      | error fault => simp [shadow, Except.map] at read
      | ok covered =>
        rw [shadow] at read
        cases read
        exact ⟨rfl, .inl ⟨⟨id, rfl⟩, rfl⟩⟩
    | empty | literal | «variable» | list =>
      cases read
      exact ⟨rfl, .inr ⟨nofun, rfl⟩⟩

/-- The reader accepts the inputs of the grammar and nothing else. -/
theorem ofJson_input_iff {json : Json} : (∃ input, Input.ofJson json = .ok input) ↔ IsInput json := by
  constructor
  · rintro ⟨input, read⟩
    obtain ⟨state, payload, more, low, high, rfl, held, content⟩ := Input.ofJson_eq_ok read
    refine .mk low high (ofJson_payload_iff.1 ⟨_, held⟩) fun covers id same => ?_
    subst same
    obtain ⟨-, shadow⟩ | ⟨other, -⟩ := content
    · exact (Input.shadowOf_eq_ok shadow).2 covers
    · exact absurd (Except.ok.inj held).symm (other ⟨id⟩)
  · rintro @⟨state, payload, more, low, high, isPayload, covered⟩
    obtain ⟨held, read⟩ := ofJson_payload_iff.2 isPayload
    rw [Input.ofJson_array payload more low high, read]
    cases held with
    | block id =>
      obtain ⟨shadow, under⟩ := Input.exists_shadowOf fun covers => covered covers _ (Payload.eq_string_of_ofJson read)
      exact ⟨⟨.block id, shadow⟩, by simp [Except.bind, under, Except.map]⟩
    | empty | literal | «variable» | list => exact ⟨_, rfl⟩

theorem Input.isNormal_of_ofJson {json : Json} {input : Input} (read : Input.ofJson json = .ok input) :
    input.IsNormal := by
  refine ⟨Input.proper_of_ofJson read, ?_⟩
  obtain ⟨state, payload, more, -, -, -, -, ⟨-, shadow⟩ | ⟨-, none⟩⟩ := Input.ofJson_eq_ok read
  · exact (Input.shadowOf_eq_ok shadow).1
  · rw [none]
    nofun

/-! ## Reading what was written -/

/-- A payload is read back from its encoding. -/
theorem Payload.ofJson_toJson (payload : Payload) : Payload.ofJson payload.toJson = .ok payload := by
  cases payload with
  | empty | block id => rfl
  | literal kind raw =>
    have range := (LiteralKind.exists_ofCode?_iff kind.code).1 ⟨kind, kind.ofCode?_code⟩
    rw [Payload.toJson, Payload.ofJson_array [] (by omega) (by omega) rfl, if_neg (by omega), if_neg (by omega),
      kind.ofCode?_code]
  | «variable» name id | list name id => cases id <;> rfl

theorem Input.state_range (input : Input) : 1 ≤ input.state ∧ input.state ≤ 3 := by
  unfold Input.state
  split <;> decide

/-- An input is read back from its canonical form. -/
theorem Input.ofJson_toJson {input : Input} (normal : input.IsNormal) : Input.ofJson input.toJson = .ok input := by
  obtain ⟨low, high⟩ := input.state_range
  rw [Input.toJson, Input.ofJson_array _ _ low high, Payload.ofJson_toJson]
  obtain ⟨payload, shadow⟩ := input
  cases shadow with
  | none => cases payload <;> rfl
  | some covered =>
    obtain ⟨id, same⟩ := normal.proper covered rfl
    obtain rfl : payload = .block id := same
    have read : Input.shadowOf 3 (some covered.toJson) = .ok (some covered) := by
      simp only [Input.shadowOf, Payload.ofJson_toJson, if_true]
      cases covered with
      | empty => exact absurd rfl normal.shadow_ne
      | literal | block | «variable» | list => rfl
    exact congrArg (Except.map (Input.mk (.block id))) read

/-- The reader of inputs accepts the values of the grammar and no others; what it gives covers something
only under a block, and never nothing; and every such input is read back from its canonical form, which
is `[1, null]`, `[1, [kind, raw]]`, `[2, id]`, `[3, id, shadow]` or, for a direct reading, `[3, [12, name, id?]]`
and `[3, [13, name, id?]]`. -/
theorem ofJson_accepts (json : Json) (input : Input) :
    ((∃ found, Input.ofJson json = .ok found) ↔ IsInput json) ∧
      (Input.ofJson json = .ok input → input.IsNormal) ∧
      (input.IsNormal → Input.ofJson input.toJson = .ok input) :=
  ⟨ofJson_input_iff, Input.isNormal_of_ofJson, Input.ofJson_toJson⟩

/-- A block over a list, stored with more than is read. -/
def storedCover : Json :=
  .array [.ofInt 3, .string "sum", .array [.ofInt 13, .string "items", .string "l1", .null], .null]

def cover : Input := ⟨.block ⟨"sum"⟩, some (.list "items" (some "l1"))⟩

theorem ofJson_accepts_cover :
    Input.ofJson storedCover = .ok cover ∧ IsInput storedCover ∧ cover.IsNormal ∧
      Input.ofJson cover.toJson = .ok cover := by
  have read : Input.ofJson storedCover = .ok cover := rfl
  obtain ⟨accepted, gives, back⟩ := ofJson_accepts storedCover cover
  exact ⟨read, accepted.1 ⟨cover, read⟩, gives read, back (gives read)⟩

end ScratchPage
