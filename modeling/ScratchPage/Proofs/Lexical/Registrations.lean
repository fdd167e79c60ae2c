import ScratchPage.Proofs.Lexical.Arguments
import ScratchPage.Proofs.Lexical.Loops

/-!
# Registrations in code

A script reaches the page by being put into one of four stores: a list of functions for each kind of event and
the table of procedures. The names of the lists stand in no other place, and the table is otherwise only
looked up. So what is registered can be read off the tokens of a target from left to right, and it is one
registration for each of its scripts (`registrations_descriptor`).
-/

namespace ScratchPage.Lexical
set_option autoImplicit false

/-- What a script is registered for. -/
inductive Registration where
  | start
  | message (name : String)
  | clone
  | procedure (code : String)
deriving DecidableEq, Repr

/-! ## Reading registrations -/

def startStore : List Char :=
  ['o', 'n', 'S', 't', 'a', 'r', 't', 'L', 'i', 's', 't', 'e', 'n', 'e', 'r', 's']

def messageStore : List Char :=
  ['b', 'r', 'o', 'a', 'd', 'c', 'a', 's', 't', 'L', 'i', 's', 't', 'e', 'n', 'e', 'r', 's']

def cloneStore : List Char := ['o', 'n', 'S', 't', 'a', 'r', 't', 'A', 's', 'C', 'l', 'o', 'n', 'e']

/-- The names of the stores. -/
def stores : List (List Char) := tableName :: eventWords

/-- What is registered by the argument with which a store is called: a list takes a function, that of the
messages an object with a name, and the table a code. -/
def registered? (store method : List Char) (argument : List Token) : Option Registration :=
  if method = ['p', 'u', 's', 'h'] then
    if store = startStore then some .start
    else if store = cloneStore then some .clone
    else if store = messageStore then
      match argument with
      | .opening .curly :: .string ['n', 'a', 'm', 'e'] :: .sign [':'] :: .string name :: _ =>
        (stringValue name).map .message
      | _ => none
    else none
  else if method = ['s', 'e', 't'] ∧ store = tableName then
    match argument with
    | .string code :: _ => (stringValue code).map .procedure
    | _ => none
  else none

/-- The registration at the beginning of tokens. -/
def registrationAt? : List Token → Option Registration
  | .word store :: .sign ['.'] :: .word method :: .opening .round :: argument => registered? store method argument
  | _ => none

/-- The registrations in tokens, from left to right. -/
def registrations : List Token → List Registration
  | [] => []
  | t :: ts => (registrationAt? (t :: ts)).toList ++ registrations ts

/-! ## Tokens that register nothing -/

/-- Nothing is registered here, whatever follows. -/
def Quiet (ts : List Token) : Prop := ∀ rest, registrations (ts ++ rest) = registrations rest

/-- A registration begins with the name of a store. -/
theorem registrationAt?_of_other {t : Token} (other : ∀ store ∈ stores, t ≠ .word store) (ts : List Token) :
    registrationAt? (t :: ts) = none := by
  unfold registrationAt?
  split
  next store method argument split =>
    cases split
    have absent : ∀ name ∈ stores, store ≠ name := fun name mem same => other name mem (congrArg Token.word same)
    have table : store ≠ tableName := absent _ (by decide)
    have start : store ≠ startStore := absent _ (by decide)
    have clone : store ≠ cloneStore := absent _ (by decide)
    have message : store ≠ messageStore := absent _ (by decide)
    simp [registered?, table, start, clone, message]
  next => rfl

namespace Quiet

theorem append {a b : List Token} (first : Quiet a) (second : Quiet b) : Quiet (a ++ b) := by
  intro rest
  rw [List.append_assoc, first, second]

/-- Quiet parts are quiet together. -/
theorem flatMap {α : Type} {f : α → List Token} {items : List α} (each : ∀ a ∈ items, Quiet (f a)) :
    Quiet (items.flatMap f) := by
  induction items with
  | nil => exact fun _ => rfl
  | cons a items ih =>
    rw [List.forall_mem_cons] at each
    rw [List.flatMap_cons]
    exact each.1.append (ih each.2)

/-- Tokens without the name of a store are quiet. -/
theorem of_absent {ts : List Token} (absent : ∀ store ∈ stores, .word store ∉ ts) : Quiet ts := by
  intro rest
  induction ts with
  | nil => rfl
  | cons t ts ih =>
    have here := registrationAt?_of_other (t := t)
      (fun store mem same => absent store mem (same ▸ List.mem_cons_self)) (ts ++ rest)
    rw [List.cons_append, registrations, here, ih fun store mem inside => absent store mem (List.mem_cons_of_mem t inside)]
    rfl

/-- To look a code up is not to put it in. -/
theorem fetchLine (code : String) : Quiet (fetchLine code).tokens := by
  intro rest
  rw [tokens_fetchLine]
  rfl

/-- A line of a statement registers nothing. -/
theorem line {fetched : List String} {line : Line} (events : ∀ word ∈ eventWords, Line.Holds (Lacks word) line)
    (uses : Uses fetched [] line) : Quiet line.tokens := by
  cases uses with
  | none absent =>
    apply of_absent
    rw [stores, List.forall_mem_cons]
    exact ⟨absent, fun word mem => not_mem_of_holds (events word mem)⟩
  | fetch => exact fetchLine _
  | store mem => cases mem

end Quiet

theorem mem_rowWords {word : List Char} (event : word ∈ eventWords) : word ∈ rowWords := by
  simp [rowWords, event]

theorem lacks_chainTexts {word : List Char} (event : word ∈ eventWords) :
    ∀ text ∈ chainTexts, Lacks word [.fixed text] := by
  simp only [chainTexts, List.forall_mem_cons, List.not_mem_nil, false_imp_iff, implies_true, and_true]
  fin_cases event <;> exact ⟨.fixed rfl, .fixed rfl, .fixed rfl, .fixed rfl⟩

theorem quiet_chain (body : List Statement) : Quiet ((Statement.chainLines body).flatMap Line.tokens) := by
  refine .flatMap fun line mem => .line (fun word event => ?_) (uses_chain (fun _ called => called) line mem)
  have texture := texture_rowWord (mem_rowWords event)
  refine texture.weave.chain (lacks_chainTexts event) body (fun name _ => ?_) (fun code _ => ?_) line mem
  · exact lacks_rowWord (mem_rowWords event) (.argument name)
  · exact (texture.tableLines (lacks_tableTexts (mem_rowWords event)) code).1

/-! ## Scripts and targets -/

/-- What a script is registered for. -/
def registrationOf : Script → Registration
  | .whenFlagClicked _ => .start
  | .whenReceived message _ => .message message
  | .whenCloned _ => .clone
  | .procedure signature _ => .procedure signature.code

/-- A registration whose function and whatever stands behind it register nothing. -/
theorem registrations_framed {head body tail : List Token} {registration : Registration}
    (first : ∀ rest, registrations (head ++ rest) = registration :: registrations rest) (inside : Quiet body)
    (last : Quiet tail) (rest : List Token) :
    registrations (head ++ body ++ tail ++ rest) = registration :: registrations rest := by
  rw [List.append_assoc, List.append_assoc, first, inside, last]

/-- The step for scripts: each one makes one registration, and its statements make none. -/
theorem registrations_script (script : Script) (rest : List Token) :
    registrations (scriptTokens script ++ rest) = registrationOf script :: registrations rest := by
  cases script with
  | whenFlagClicked body | whenCloned body =>
    rw [scriptTokens, Script.lines, List.flatMap_append, List.flatMap_append]
    refine registrations_framed (fun rest => ?_) (quiet_chain body) (.of_absent ?_) rest <;>
      simp only [List.flatMap_cons, List.flatMap_nil, Line.tokens, Code.tokens_singleton, screenRefresh] <;>
      repeat rw [Fragment.tokens_fixed]
    · rfl
    · decide
  | whenReceived message body =>
    rw [scriptTokens, Script.lines, List.flatMap_append, List.flatMap_append]
    refine registrations_framed (fun rest => ?_) (quiet_chain body) (.of_absent ?_) rest <;>
      simp only [List.flatMap_cons, List.flatMap_nil, Line.tokens, Code.tokens_append, Code.tokens_singleton,
        Code.quoted, tokens_quoted, screenRefresh] <;>
      repeat rw [Fragment.tokens_fixed]
    · change ((stringValue _).map Registration.message).toList ++ registrations rest = _
      rw [stringValue_quoted]
      rfl
    · decide
  | procedure signature body =>
    rw [scriptTokens, tokens_procedure, methodTokens]
    refine registrations_framed (fun rest => ?_) (quiet_chain body) (.of_absent fun store mem => ?_) rest
    · change ((stringValue _).map Registration.procedure).toList ++ registrations rest = _
      rw [stringValue_quoted]
      rfl
    · have other : store ∉ valueWords := by
        fin_cases mem <;> decide
      simp only [methodTail, List.mem_append, not_mem_textElements other, or_false]
      fin_cases mem <;> decide

theorem registrations_scripts (scripts : List Script) (rest : List Token) :
    registrations (scripts.flatMap scriptTokens ++ rest) = scripts.map registrationOf ++ registrations rest := by
  induction scripts with
  | nil => rfl
  | cons script scripts ih =>
    rw [List.flatMap_cons, List.append_assoc, registrations_script, ih, List.map_cons, List.cons_append]

/-- Around its scripts a target registers nothing, so the registrations in its code are those of its scripts. -/
theorem registrations_descriptor (d : Descriptor) :
    ∃ all, tokens d.code = some all ∧ registrations all = d.scripts.map registrationOf := by
  refine ⟨_, tokens_descriptor d, ?_⟩
  have head : Quiet (d.headLines.flatMap Line.tokens) := .flatMap fun line mem =>
    .line (fun word event => (texture_rowWord (mem_rowWords event)).weave.headLines d line mem)
      (weave_uses.headLines d line mem : Uses [] [] line)
  have tail : Quiet (d.tailLines.flatMap Line.tokens) := .flatMap fun line mem =>
    .line (fun word event => (texture_rowWord (mem_rowWords event)).weave.tailLines d line mem)
      (weave_uses.tailLines d line mem : Uses [] [] line)
  have last := tail []
  rw [List.append_nil] at last
  rw [List.append_assoc, head, registrations_scripts, last, registrations, List.append_nil]

end ScratchPage.Lexical
