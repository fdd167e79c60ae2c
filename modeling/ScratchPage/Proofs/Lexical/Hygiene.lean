import ScratchPage.Proofs.Compile.Tracked
import ScratchPage.Proofs.Lexical.Arguments
import ScratchPage.Proofs.Lexical.Scopes

/-!
# Statements keep their names to themselves

Every statement is a block of its own, and the names it declares are used in that block alone, outside the
blocks of the statements it holds. No operand has such a name as a variable, so an operand reads the same
wherever it stands.

An operand leaves the reader of scopes where it was (`Still`), and statements leave the scopes around them as
they are and only add their blocks (`Fenced`). So the blocks in the code of a target can be told from its
statements (`blocksOf_descriptor`).
-/

namespace ScratchPage
set_option autoImplicit false

open Lexical (Bindings Helper)

/-! ## The names of statements -/

/-- The names that an action declares, and those that it uses, in order. -/
def Action.bindings : Action → Bindings
  | .moveSteps _ => ⟨[.steps], [.steps, .steps]⟩
  | .pointInDirection _ => ⟨[.direction], [.direction, .direction, .direction]⟩
  | .clearEffects => ⟨[.effect], [.effect]⟩
  | .wait _ => ⟨[.resolve], [.resolve]⟩
  | .cloneSelf => ⟨[.sprite], [.sprite, .sprite]⟩
  | .listInsert .. => ⟨[.listRef, .index], [.index, .index, .listRef, .listRef, .index]⟩
  | .listReplace .. => ⟨[.listRef, .index], [.index, .index, .listRef, .listRef, .index]⟩
  | .listDelete .. => ⟨[.listRef, .index], [.index, .index, .listRef, .listRef, .index]⟩
  | .call .. => ⟨[.procInfo, .methodArgs], [.procInfo, .procInfo, .methodArgs, .procInfo]⟩
  | _ => ⟨[], []⟩

namespace Statement

/-- The names that a statement declares, and those that it uses, without the statements that it holds. -/
def bindings : Statement → Bindings
  | .action act => act.bindings
  | .repeatTimes .. => ⟨[.times, .turn], [.turn, .times, .turn]⟩
  | _ => ⟨[], []⟩

mutual

/-- The statement behind all statements that it holds, at any depth. -/
def parts : Statement → List Statement
  | .action act => [.action act]
  | .forever body => chainParts body ++ [.forever body]
  | .repeatTimes times body => chainParts body ++ [.repeatTimes times body]
  | .repeatUntil condition body => chainParts body ++ [.repeatUntil condition body]
  | .waitUntil condition => [.waitUntil condition]
  | .branch condition body => chainParts body ++ [.branch condition body]
  | .branchElse condition body other => chainParts body ++ chainParts other ++ [.branchElse condition body other]

/-- All statements of a chain, at any depth. -/
def chainParts : List Statement → List Statement
  | [] => []
  | statement :: rest => statement.parts ++ chainParts rest

end

end Statement

/-- All statements of a target, at any depth, in the order in which they end. -/
def Descriptor.statements (d : Descriptor) : List Statement :=
  d.scripts.flatMap fun script => Statement.chainParts script.body

namespace Lexical

/-! ## Values and operands -/

/-- The reader is in an expression, and not behind a dot. -/
def Reader.isCalm : Reader → Bool
  | ⟨_, .other, false, _⟩ => true
  | _ => false

/-- A comma may follow. -/
def takesComma : List Enclosure → Bool
  | ⟨_, false, _, [], _, _, _⟩ :: _ => true
  | _ => false

theorem see_comma {scopes : List Enclosure} (takes : takesComma scopes = true) (dot : Bool) (blocks : List Bindings) :
    Reader.see ⟨scopes, .other, dot, blocks⟩ (.sign [',']) = some ⟨scopes, .other, false, blocks⟩ := by
  unfold takesComma at takes
  split at takes
  · rfl
  · cases takes

theorem wordCue_of_value {word : List Char} (listed : word ∈ valueWords) : wordCue word = .word := by
  fin_cases listed <;> rfl

/-- Tokens of plain values leave the scopes as they are. -/
theorem see_plain {t : Token} (plain : t.isPlain = true) (dot : Bool) :
    ∃ last, ∀ scopes blocks,
      Reader.see ⟨scopes, .other, dot, blocks⟩ t = some ⟨scopes, .other, last, blocks⟩ := by
  cases t with
  | word text =>
    have listed : text ∈ valueWords := of_decide_eq_true plain
    refine ⟨false, fun scopes blocks => ?_⟩
    have isWord : cue dot (.word text) = .word := by
      rw [cue, wordCue_of_value listed, Bool.cond_self]
    rw [Reader.see, isWord]
    rfl
  | sign text =>
    simp only [Token.isPlain, List.mem_cons, List.not_mem_nil, or_false, not_or, decide_eq_true_eq] at plain
    by_cases isDot : text = ['.'] ∨ text = ['?', '.']
    · have sign : cue dot (.sign text) = .dot := if_pos isDot
      refine ⟨true, fun scopes blocks => ?_⟩
      rw [Reader.see, sign]
      rfl
    · have sign : cue dot (.sign text) = .plain := by simp [cue, signCue, isDot, plain]
      refine ⟨false, fun scopes blocks => ?_⟩
      rw [Reader.see, sign]
      rfl
  | number | string => exact ⟨false, fun _ _ => rfl⟩
  | comment | opening | closing => cases plain

/-- The tokens of a value leave the reader where it was. -/
theorem feed_value {inGroup : Bool} {ts : List Token} (value : IsValue inGroup ts) (dot : Bool) :
    ∃ last, ∀ scopes blocks, (inGroup = true → takesComma scopes = true) →
      feed Reader.see ⟨scopes, .other, dot, blocks⟩ ts = some ⟨scopes, .other, last, blocks⟩ := by
  induction value generalizing dot with
  | nil => exact ⟨dot, fun _ _ _ => rfl⟩
  | plain plain =>
    obtain ⟨last, seen⟩ := see_plain plain dot
    exact ⟨last, fun scopes blocks _ => by simp [feed, seen]⟩
  | comma => exact ⟨false, fun scopes blocks takes => by simp [feed, see_comma (takes rfl)]⟩
  | append _ _ first second =>
    obtain ⟨middle, fedFirst⟩ := first dot
    obtain ⟨last, fedSecond⟩ := second middle
    refine ⟨last, fun scopes blocks takes => ?_⟩
    rw [feed_append, fedFirst scopes blocks takes]
    exact fedSecond scopes blocks takes
  | group bracket _ inside =>
    obtain ⟨middle, fed⟩ := inside false
    refine ⟨false, fun scopes blocks _ => ?_⟩
    cases bracket <;>
    · rw [List.cons_append, feed]
      show (feed Reader.see ⟨_ :: scopes, .other, false, blocks⟩ _) = _
      rw [feed_append, fed _ _ fun _ => rfl]
      rfl

/-- Code that is read as an expression and leaves the reader where it was. -/
def Still (code : Code) : Prop :=
  ∃ last, ∀ scopes blocks,
    feed Reader.see ⟨scopes, .other, false, blocks⟩ code.tokens = some ⟨scopes, .other, last, blocks⟩

namespace Still

/-- How such code is read, in a form that needs no condition on the place before it. -/
theorem all_passed {α : Type} {code : α → Code} {given : α → Prop} (still : ∀ a, given a → Still (code a)) :
    ∃ (last : α → Bool) (other : α → Reader → Option Reader), ∀ a, given a → ∀ s,
      feed Reader.see s (code a).tokens = bif s.isCalm then some { s with dot := last a } else other a s := by
  have known : ∀ a, given a → ∃ last : Bool, ∀ s : Reader, s.isCalm = true →
      feed Reader.see s (code a).tokens = some { s with dot := last } := by
    intro a isGiven
    obtain ⟨last, fed⟩ := still a isGiven
    refine ⟨last, fun s calm => ?_⟩
    unfold Reader.isCalm at calm
    split at calm
    · exact fed _ _
    · cases calm
  exact exists_passed known

theorem passed {code : Code} (still : Still code) :
    ∃ (last : Bool) (other : Reader → Option Reader), ∀ s, feed Reader.see s code.tokens =
      bif s.isCalm then some { s with dot := last } else other s := by
  obtain ⟨last, other, passes⟩ := all_passed fun (_ : Unit) (_ : True) => still
  exact ⟨last (), other (), passes () trivial⟩

theorem of_value {fragment : Fragment} (value : ValueText fragment.chars) : Still [fragment] := by
  obtain ⟨ts, reads, isValue⟩ := value.reads
  obtain ⟨last, fed⟩ := feed_value (isValue false) false
  refine ⟨last, fun scopes blocks => ?_⟩
  rw [Code.tokens_singleton, reads.tokens]
  exact fed scopes blocks (by simp)

theorem quoted (text : String) : Still (Code.quoted text) := of_value (valueText_quoted text)

theorem number (value : Float) : Still (Code.number value) := of_value (valueText_number value)

theorem integer (value : Int) : Still (Code.integer value) := of_value (valueText_integer value)

theorem data (value : Json) : Still (Code.data value) := of_value (valueText_data value)

end Still

theorem still_randomFunction : Still Operand.randomFunction := by
  refine ⟨Bool.false, fun scopes blocks => ?_⟩
  simp only [Operand.randomFunction, Code.tokens, List.flatMap_cons, List.flatMap_nil, feed_append]
  repeat rw [Fragment.tokens_fixed]
  rfl

/-- Every operand is read as an expression. -/
theorem still_operand (operand : Operand) : Still operand.code := by
  induction operand using Operand.children_induction with
  | step operand stills =>
    -- The operands and values in the code leave the reader where it is, and `rfl` reads the fixed texts.
    obtain ⟨_, _, inner⟩ := Still.all_passed stills
    obtain ⟨_, _, quoted⟩ := Still.all_passed fun text (_ : True) => .quoted text
    obtain ⟨_, _, number⟩ := Still.all_passed fun value (_ : True) => .number value
    obtain ⟨_, _, function⟩ := still_randomFunction.passed
    cases operand with
    | number value => exact .number value
    | text value => exact .quoted value
    | binary sort _ _ | math sort _ | costumeName sort | costumeNumber sort =>
      cases sort <;>
      · simp only [Operand.children, List.forall_mem_cons] at inner
        refine ⟨Bool.false, fun scopes blocks => ?_⟩
        simp only [Operand.code, Operator.sign, MathFunction.around, Wearer.code, Code.tokens_append,
          Code.tokens_singleton, feed_append, inner]
        repeat rw [Fragment.tokens_fixed]
        rfl
    | missing opcode =>
      refine ⟨Bool.false, fun scopes blocks => ?_⟩
      simp only [Operand.code, Code.comment, Code.tokens_append, Code.tokens_singleton, tokens_comment]
      repeat rw [Fragment.tokens_fixed]
      rfl
    | _ =>
      simp only [Operand.children, List.forall_mem_cons] at inner
      refine ⟨Bool.false, fun scopes blocks => ?_⟩
      simp only [Operand.code, Operand.listCode, Code.tokens_append, Code.tokens_singleton, feed_append, inner,
        quoted, number, function]
      repeat rw [Fragment.tokens_fixed]
      rfl

/-! ## Operands have no names of statements -/

/-- The variables of tokens are those of both parts; the second part may stand behind a dot. -/
theorem variablesOf_append (dot : Bool) (a b : List Token) :
    ∃ last, variablesOf dot (a ++ b) = variablesOf dot a ++ variablesOf last b := by
  induction a generalizing dot with
  | nil => exact ⟨dot, rfl⟩
  | cons t a ih =>
    simp only [List.cons_append, variablesOf]
    split
    · exact ih dot
    · exact ih true
    · obtain ⟨last, rest⟩ := ih false
      exact ⟨last, by rw [rest, List.cons_append]⟩
    · exact ih false

/-- Tokens without the names of statements have none of them as a variable. -/
theorem variablesOf_eq_nil {ts : List Token}
    (other : ∀ word, .word word ∈ ts → ∀ name, wordCue word ≠ .helper name) (dot : Bool) : variablesOf dot ts = [] := by
  induction ts generalizing dot with
  | nil => rfl
  | cons t ts ih =>
    have rest := ih fun word mem => other word (List.mem_cons_of_mem t mem)
    rw [variablesOf]
    split
    · exact rest dot
    · exact rest true
    · rename_i name isHelper
      cases t with
      | word word =>
        cases dot with
        | true => cases isHelper
        | false => exact absurd isHelper (other word (by simp) name)
      | sign sign =>
        simp only [cue, signCue] at isHelper
        split_ifs at isHelper
      | _ => cases isHelper
    · exact rest false

/-- None of the names of statements is a variable of the code, behind whatever it stands. -/
structure Free (code : Code) : Prop where
  none : ∀ dot, variablesOf dot code.tokens = []

namespace Free

theorem append {a b : Code} (first : Free a) (second : Free b) : Free (a ++ b) := by
  constructor
  intro dot
  obtain ⟨last, whole⟩ := variablesOf_append dot a.tokens b.tokens
  rw [Code.tokens_append, whole, first.none, second.none, List.append_nil]

theorem fixed {text : List Char} (apart : variablesOf false ((tokensOf text).getD []) = [])
    (behind : variablesOf true ((tokensOf text).getD []) = []) : Free [.fixed (String.ofList text)] := by
  constructor
  rw [Code.tokens_singleton, Fragment.tokens_fixed]
  exact Bool.forall_bool.2 ⟨apart, behind⟩

theorem comment (text : String) : Free (Code.comment text) := by
  constructor
  intro dot
  rw [Code.comment, Code.tokens_singleton, tokens_comment]
  rfl

theorem of_value {fragment : Fragment} (value : ValueText fragment.chars) : Free [fragment] := by
  obtain ⟨ts, reads, isValue⟩ := value.reads
  constructor
  rw [Code.tokens_singleton, reads.tokens]
  apply variablesOf_eq_nil
  intro word mem name
  simp [wordCue_of_value ((isValue true).mem_valueWords mem)]

/-- No operand has a name of a statement as a variable. -/
theorem texture : OperandTexture Free where
  append := .append
  fixed isText := by
    simp only [isOperandText, Bool.and_eq_true, List.isEmpty_iff] at isText
    exact .fixed isText.1.2 isText.2
  sign op := .append (.append (.fixed rfl rfl) (by cases op <;> exact .fixed rfl rfl)) (.fixed rfl rfl)
  quoted text := .of_value (valueText_quoted text)
  number value := .of_value (valueText_number value)
  comment := .comment

theorem operand (operand : Operand) : Free operand.code :=
  texture.operand fun name _ => .append (.append (.fixed rfl rfl) (.of_value (valueText_quoted name))) (.fixed rfl rfl)

end Free

/-! ## Statements are blocks -/

/-- The reader is where a statement can begin. -/
def Reader.isAtStart : Reader → Bool
  | ⟨_, .begins, false, _⟩ => true
  | _ => false

/-- Lines that are whole statements. They leave the scopes around them as they are and add these blocks. -/
def Fenced (lines : List Line) (own : List Bindings) : Prop :=
  ∀ scopes blocks, feed Reader.see ⟨scopes, .begins, false, blocks⟩ (lines.flatMap Line.tokens) =
    some ⟨scopes, .begins, false, blocks ++ own⟩

namespace Fenced

/-- The form of a fence in which it can be rewritten with: where no statement can begin, the outcome is left
open. -/
theorem passed {lines : List Line} {own : List Bindings} (isFenced : Fenced lines own) :
    ∃ other : Reader → Option Reader, ∀ s, feed Reader.see s (lines.flatMap Line.tokens) =
      bif s.isAtStart then some { s with blocks := s.blocks ++ own } else other s := by
  refine ⟨fun s => feed Reader.see s (lines.flatMap Line.tokens), fun s => ?_⟩
  cases start : s.isAtStart with
  | true =>
    unfold Reader.isAtStart at start
    split at start
    · exact isFenced _ _
    · cases start
  | false => rfl

theorem nil : Fenced [] [] := fun scopes blocks => by simp [feed]

theorem append {a b : List Line} {first second : List Bindings} (fencedA : Fenced a first)
    (fencedB : Fenced b second) : Fenced (a ++ b) (first ++ second) := by
  intro scopes blocks
  rw [List.flatMap_append, feed_append, fencedA scopes blocks, Option.bind_some, fencedB, List.append_assoc]

end Fenced

/-- Items of a list, each on a line of its own with a comma, leave the reader where it was. -/
theorem feed_items {α : Type} (code : α → Code) {items : List α} (each : ∀ a ∈ items, Still (code a))
    {scopes : List Enclosure} (takes : takesComma scopes = true) (blocks : List Bindings) :
    feed Reader.see ⟨scopes, .other, false, blocks⟩
      ((items.map fun a => Line.plain (code a ++ ",")).flatMap Line.tokens) =
        some ⟨scopes, .other, false, blocks⟩ := by
  induction items with
  | nil => rfl
  | cons a items ih =>
    obtain ⟨last, fed⟩ := each a (by simp)
    have comma : Fragment.tokens (.fixed ",") = [.sign [',']] := Fragment.tokens_fixed [',']
    rw [List.map_cons, List.flatMap_cons, feed_append, Line.tokens, Code.tokens_append, feed_append, fed,
      Option.bind_some, Code.tokens_singleton, comma, feed, see_comma takes]
    exact ih fun b mem => each b (by simp [mem])

/-- Items between commas, in a place where commas may follow. -/
theorem items_passed {α : Type} (code : α → Code) {items : List α} (each : ∀ a ∈ items, Still (code a)) :
    ∃ other : Reader → Option Reader, ∀ s,
      feed Reader.see s ((items.map fun a => Line.plain (code a ++ ",")).flatMap Line.tokens) =
        bif s.isCalm && takesComma s.scopes then some s else other s := by
  refine ⟨fun s => feed Reader.see s ((items.map fun a => Line.plain (code a ++ ",")).flatMap Line.tokens),
    fun s => ?_⟩
  cases ready : s.isCalm && takesComma s.scopes with
  | false => rfl
  | true =>
    obtain ⟨calm, takes⟩ := Bool.and_eq_true_iff.1 ready
    unfold Reader.isCalm at calm
    split at calm
    · exact feed_items code each takes _
    · cases calm

/-- An action in its braces is one block. -/
theorem fenced_action (act : Action) : Fenced (Statement.inBraces act.lines) [act.bindings] := by
  -- The operands and names in the lines leave the reader where it is, and `rfl` reads the fixed texts.
  obtain ⟨_, _, inner⟩ := Still.all_passed fun a (_ : True) => still_operand a
  obtain ⟨_, _, quoted⟩ := Still.all_passed fun text (_ : True) => .quoted text
  intro scopes blocks
  cases act with
  | goTo sort | glideToDestination _ sort | nextCostume sort | switchCostume sort _ | setVisible sort
  | goToLayer sort =>
    cases sort <;>
    · simp only [Statement.inBraces, Action.lines, Action.guarded, Destination.code, Wearer.code, Layer.method,
        Bool.false_eq_true, if_true, if_false, List.flatMap_cons, List.flatMap_append, List.flatMap_nil,
        Line.tokens, Code.tokens_append, Code.tokens_singleton, feed_append, inner]
      repeat rw [Fragment.tokens_fixed]
      rfl
  | call code arguments =>
    obtain ⟨_, given⟩ := items_passed Operand.code fun a (_ : a ∈ arguments) => still_operand a
    simp only [Statement.inBraces, Action.lines, Action.guarded, List.flatMap_append, feed_append, given]
    simp only [List.flatMap_cons, List.flatMap_nil, Line.tokens, Code.tokens_append, Code.tokens_singleton,
      feed_append, quoted]
    repeat rw [Fragment.tokens_fixed]
    rfl
  | _ =>
    simp only [Statement.inBraces, Action.lines, Action.listPlace, Action.guarded, Operand.listCode,
      List.flatMap_cons, List.flatMap_append, List.flatMap_nil, Line.tokens, Code.tokens_append,
      Code.tokens_singleton, feed_append, inner, quoted]
    repeat rw [Fragment.tokens_fixed]
    rfl

mutual

/-- A statement in its braces is one block behind those of the statements that it holds. -/
theorem fenced_body : (statement : Statement) →
    Fenced (Statement.inBraces statement.bodyLines) (statement.parts.map Statement.bindings)
  | .action act => fenced_action act
  | .forever body => by
    intro scopes blocks
    obtain ⟨_, inside⟩ := (fenced_chain body).passed
    simp only [Statement.inBraces, Statement.bodyLines, loopLines, screenRefresh, List.flatMap_append, feed_append,
      inside, Statement.parts, List.map_append, ← List.append_assoc]
    simp only [List.flatMap_cons, List.flatMap_nil, Line.tokens, Code.tokens_singleton]
    repeat rw [Fragment.tokens_fixed]
    rfl
  | .repeatTimes times body => by
    intro scopes blocks
    obtain ⟨_, _, first⟩ := (still_operand times).passed
    obtain ⟨_, inside⟩ := (fenced_chain body).passed
    simp only [Statement.inBraces, Statement.bodyLines, loopLines, screenRefresh, List.flatMap_append, feed_append,
      inside, Statement.parts, List.map_append, ← List.append_assoc]
    simp only [List.flatMap_cons, List.flatMap_nil, Line.tokens, Code.tokens_append, Code.tokens_singleton,
      feed_append, first]
    repeat rw [Fragment.tokens_fixed]
    rfl
  | .repeatUntil condition body => by
    intro scopes blocks
    obtain ⟨_, _, first⟩ := (still_operand condition).passed
    obtain ⟨_, inside⟩ := (fenced_chain body).passed
    simp only [Statement.inBraces, Statement.bodyLines, Statement.untilHead, loopLines, screenRefresh,
      List.flatMap_append, feed_append, inside, Statement.parts, List.map_append, ← List.append_assoc]
    simp only [List.flatMap_cons, List.flatMap_nil, Line.tokens, Code.tokens_append, Code.tokens_singleton,
      feed_append, first]
    repeat rw [Fragment.tokens_fixed]
    rfl
  | .waitUntil condition => by
    intro scopes blocks
    obtain ⟨_, _, first⟩ := (still_operand condition).passed
    simp only [Statement.inBraces, Statement.bodyLines, Statement.untilHead, loopLines, screenRefresh,
      List.flatMap_append, List.flatMap_cons, List.flatMap_nil, Line.tokens, Code.tokens_append,
      Code.tokens_singleton, feed_append, first]
    repeat rw [Fragment.tokens_fixed]
    rfl
  | .branch condition body => by
    intro scopes blocks
    obtain ⟨_, _, first⟩ := (still_operand condition).passed
    obtain ⟨_, inside⟩ := (fenced_chain body).passed
    simp only [Statement.inBraces, Statement.bodyLines, Statement.branchHead, List.flatMap_append, feed_append,
      inside, Statement.parts, List.map_append, ← List.append_assoc]
    simp only [List.flatMap_cons, List.flatMap_nil, Line.tokens, Code.tokens_append, Code.tokens_singleton,
      feed_append, first]
    repeat rw [Fragment.tokens_fixed]
    rfl
  | .branchElse condition body other => by
    intro scopes blocks
    obtain ⟨_, _, first⟩ := (still_operand condition).passed
    obtain ⟨_, inside⟩ := (fenced_chain body).passed
    obtain ⟨_, insideOther⟩ := (fenced_chain other).passed
    simp only [Statement.inBraces, Statement.bodyLines, Statement.branchHead, List.flatMap_append, feed_append,
      inside, insideOther, Statement.parts, List.map_append, ← List.append_assoc]
    simp only [List.flatMap_cons, List.flatMap_nil, Line.tokens, Code.tokens_append, Code.tokens_singleton,
      feed_append, first]
    repeat rw [Fragment.tokens_fixed]
    rfl

/-- Statements one after the other are blocks one after the other. -/
theorem fenced_chain : (chain : List Statement) →
    Fenced (Statement.chainLines chain) ((Statement.chainParts chain).map Statement.bindings)
  | [] => .nil
  | statement :: rest => by
    rw [Statement.chainLines, Statement.chainParts, List.map_append]
    exact (fenced_body statement).append (fenced_chain rest)

end

/-! ## Targets -/

/-- The scopes around the scripts of a target. -/
def scriptScopes : List Enclosure :=
  [.start .body [], .start .group [], .start .literal [], .start .group []]

/-- The step for scripts: each one adds the blocks of its statements and leaves the scopes around it. -/
theorem feed_script (script : Script) (blocks : List Bindings) :
    feed Reader.see ⟨scriptScopes, .begins, false, blocks⟩ (scriptTokens script) =
      some ⟨scriptScopes, .begins, false,
        blocks ++ (Statement.chainParts script.body).map Statement.bindings⟩ := by
  obtain ⟨_, inside⟩ := (fenced_chain script.body).passed
  cases script with
  | whenFlagClicked body | whenCloned body =>
    simp only [Script.body] at inside
    simp only [scriptTokens, Script.lines, screenRefresh, List.flatMap_append, feed_append, inside]
    simp only [List.flatMap_cons, List.flatMap_nil, Line.tokens, Code.tokens_singleton]
    repeat rw [Fragment.tokens_fixed]
    rfl
  | whenReceived message body =>
    obtain ⟨_, _, name⟩ := (Still.quoted message).passed
    simp only [Script.body] at inside
    simp only [scriptTokens, Script.lines, screenRefresh, List.flatMap_append, feed_append, inside]
    simp only [List.flatMap_cons, List.flatMap_nil, Line.tokens, Code.tokens_append, Code.tokens_singleton,
      feed_append, name]
    repeat rw [Fragment.tokens_fixed]
    rfl
  | procedure signature body =>
    obtain ⟨_, _, name⟩ := (Still.quoted signature.code).passed
    obtain ⟨_, _, ids⟩ := (Still.data (.array (signature.argumentIds.map Json.string))).passed
    obtain ⟨_, _, names⟩ := (Still.data (.array (signature.argumentNames.map Json.string))).passed
    simp only [Script.body] at inside
    simp only [scriptTokens, Script.lines, Script.textArray, List.flatMap_append, feed_append, inside]
    simp only [List.flatMap_cons, List.flatMap_nil, Line.tokens, Code.tokens_append, Code.tokens_singleton,
      feed_append, name, ids, names]
    repeat rw [Fragment.tokens_fixed]
    rfl

/-- The run over the scripts of a target. -/
theorem feed_scripts (scripts : List Script) (blocks : List Bindings) :
    feed Reader.see ⟨scriptScopes, .begins, false, blocks⟩ (scripts.flatMap scriptTokens) =
      some ⟨scriptScopes, .begins, false,
        blocks ++ (scripts.flatMap fun script => Statement.chainParts script.body).map Statement.bindings⟩ := by
  induction scripts generalizing blocks with
  | nil => simp [feed]
  | cons script scripts ih =>
    rw [List.flatMap_cons, feed_append, feed_script, Option.bind_some, ih, List.flatMap_cons, List.map_append,
      List.append_assoc]

/-- The lines that publish values stand outside all brackets and have no blocks. -/
theorem feed_global {store : String} (known : store = "globalVariables" ∨ store = "globalLists")
    (values : List (String × Json)) :
    feed Reader.see .start ((Descriptor.globalLines store values).flatMap Line.tokens) = some .start := by
  induction values with
  | nil => rfl
  | cons pair values ih =>
    obtain ⟨id, value⟩ := pair
    obtain ⟨_, _, name⟩ := (Still.quoted id).passed
    obtain ⟨_, _, content⟩ := (Still.data value).passed
    simp only [Descriptor.globalLines, List.map_cons, List.flatMap_cons, Line.tokens, Code.tokens_append,
      Code.tokens_singleton, feed_append, name, content]
    rcases known with rfl | rfl <;>
    · repeat rw [Fragment.tokens_fixed]
      exact ih

theorem still_argument (d : Descriptor) : ∀ code ∈ d.arguments, Still code := by
  have flag : Still (Descriptor.flag d.isStage) :=
    .of_value (by cases d.isStage <;> exact .of_run rfl rfl (by decide) (by decide))
  simp only [Descriptor.arguments, List.mem_cons, List.not_mem_nil, or_false, forall_eq_or_imp, forall_eq]
  exact ⟨.quoted _, .number _, .number _, .number _, .number _, .data _, .integer _, .quoted _, .data _, .data _,
    flag⟩

/-- The lines before the scripts open the scopes around them. -/
theorem feed_headLines (d : Descriptor) :
    feed Reader.see .start (d.headLines.flatMap Line.tokens) = some ⟨scriptScopes, .begins, false, []⟩ := by
  obtain ⟨_, given⟩ := items_passed (fun code => code) (still_argument d)
  simp only [Descriptor.headLines, List.flatMap_append, feed_append, feed_global (.inl rfl),
    feed_global (.inr rfl), Option.bind_some, given]
  simp only [List.flatMap_cons, List.flatMap_nil, Line.tokens, Code.tokens_singleton]
  repeat rw [Fragment.tokens_fixed]
  rfl

/-- The lines behind the scripts close them. -/
theorem feed_tailLines (d : Descriptor) (blocks : List Bindings) :
    feed Reader.see ⟨scriptScopes, .begins, false, blocks⟩ (d.tailLines.flatMap Line.tokens) =
      some ⟨[], .begins, false, blocks⟩ := by
  simp only [Descriptor.tailLines, Descriptor.flag]
  cases d.visible <;>
  · simp only [Bool.false_eq_true, if_true, if_false, List.flatMap_cons, List.flatMap_nil, Line.tokens,
      Code.tokens_append, Code.tokens_singleton]
    repeat rw [Fragment.tokens_fixed]
    rfl

/-- The blocks in the code of a target are its statements. -/
theorem blocksOf_descriptor (d : Descriptor) :
    ∃ ts, tokens d.code = some ts ∧ blocksOf ts = some (d.statements.map Statement.bindings) := by
  refine ⟨_, tokens_descriptor d, ?_⟩
  rw [blocksOf, feed_append, feed_append, feed_headLines, Option.bind_some, feed_scripts, Option.bind_some,
    feed_tailLines]
  rfl

/-- In the code of every target each statement is one block, wherever it stands. The block declares each of its
names once and uses only names that it has declared, and no operand has one of these names as a variable. -/
theorem target_hygienic (t : Target) :
    (Compile.target t).Yields fun d =>
      (∃ ts, tokens d.code = some ts ∧ blocksOf ts = some (d.statements.map Statement.bindings)) ∧
      (∀ statement ∈ d.statements,
        Fenced statement.lines (statement.parts.map Statement.bindings) ∧ statement.bindings.Bound) ∧
      ∀ operand : Operand, ∃ own, tokens operand.code.text = some own ∧ variablesOf false own = [] := by
  intro d _
  obtain ⟨ts, read, found⟩ := blocksOf_descriptor d
  refine ⟨⟨ts, read, found⟩, ?_, ?_⟩
  · intro statement mem
    exact ⟨fenced_body statement, blocksOf_bound found _ (List.mem_map_of_mem mem)⟩
  · intro operand
    exact ⟨operand.code.tokens, tokens_operand operand, (Free.operand operand).none false⟩

/-- A procedure with a loop in a loop, in which it changes a list and calls itself. -/
def nestedNames : Target :=
  Compile.spriteOf
    [Compile.linkedBlock "hat" (.hat .defineProcedure) [("custom_block", "prototype")] (some "outer"),
     { Compile.linkedBlock "prototype" (.unknown "procedures_prototype") [] none with
       signature := some ⟨"weave", [], [], false⟩ },
     Compile.linkedBlock "outer" (.command .repeatTimes) [("TIMES", "heading"), ("SUBSTACK", "inner")] none,
     Compile.linkedBlock "inner" (.command .repeatTimes) [("TIMES", "heading"), ("SUBSTACK", "insert")]
       (some "move"),
     { Compile.linkedBlock "insert" (.command .insertAtList) [("INDEX", "heading"), ("ITEM", "heading")]
         (some "again") with fields := [("LIST", ⟨"index", none⟩)] },
     { Compile.linkedBlock "again" (.command .callProcedure) [] none with
       signature := some ⟨"weave", [], [], false⟩ },
     Compile.linkedBlock "move" (.command .moveSteps) [("STEPS", "heading")] none,
     Compile.linkedBlock "heading" (.reporter .direction) [] none]

/-- Nested statements declare names of their own, also where they have the same words, and each is bound. -/
theorem target_hygienic_nested :
    ∃ d ts own, (Compile.target nestedNames).result = .ok d ∧ tokens d.code = some ts ∧
      blocksOf ts = some
        [⟨[.listRef, .index], [.index, .index, .listRef, .listRef, .index]⟩,
         ⟨[.procInfo, .methodArgs], [.procInfo, .procInfo, .methodArgs, .procInfo]⟩,
         ⟨[.times, .turn], [.turn, .times, .turn]⟩, ⟨[.steps], [.steps, .steps]⟩,
         ⟨[.times, .turn], [.turn, .times, .turn]⟩] ∧
      tokens Operand.direction.code.text = some own ∧ .word Helper.direction.word ∈ own ∧
      variablesOf false own = [] := by
  have made : (Compile.target nestedNames).result.toOption.map
      (fun d => d.statements.map Statement.bindings) = some
        [⟨[.listRef, .index], [.index, .index, .listRef, .listRef, .index]⟩,
         ⟨[.procInfo, .methodArgs], [.procInfo, .procInfo, .methodArgs, .procInfo]⟩,
         ⟨[.times, .turn], [.turn, .times, .turn]⟩, ⟨[.steps], [.steps, .steps]⟩,
         ⟨[.times, .turn], [.turn, .times, .turn]⟩] := by decide +kernel
  cases compiled : (Compile.target nestedNames).result with
  | error e =>
    rw [compiled] at made
    cases made
  | ok d =>
    rw [compiled] at made
    obtain ⟨⟨ts, read, found⟩, -, free⟩ := target_hygienic nestedNames d compiled
    obtain ⟨own, readOwn, none⟩ := free .direction
    have named : .word Helper.direction.word ∈ own := by
      rw [tokens_operand, Option.some.injEq] at readOwn
      rw [← readOwn, Operand.code, Code.tokens_singleton, Fragment.tokens_fixed]
      decide +kernel
    exact ⟨d, ts, own, rfl, read, found.trans made, readOwn, named, none⟩

end Lexical

end ScratchPage
