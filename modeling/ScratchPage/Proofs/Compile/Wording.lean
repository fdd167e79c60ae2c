import ScratchPage.Proofs.Compile.Likeness.Scripts
import ScratchPage.Proofs.Compile.Tracked
import ScratchPage.Proofs.Lexical.Descriptor
import ScratchPage.Proofs.Lexical.Lines

/-!
# Texts cannot become code

A project may be reworded: its texts that stand for no number, the names of its targets and the messages
that its hats wait for are replaced by others. Reworded projects fail with errors of one kind, or their
code has the same tokens up to the contents of strings (`compile_reworded`). The reason is in two parts.
Reworded blocks are alike, so the compiler writes the same fragments up to quoted texts; and a quoted text
is read as one string whatever it holds, so it does not disturb the tokens around it.
-/

namespace ScratchPage
set_option autoImplicit false

/-! ## Code without its texts -/

/-- A fragment without the text between quotation marks. -/
def Fragment.blank : Fragment → Fragment
  | .quoted _ => .quoted ""
  | fragment => fragment

namespace Lexical

/-- A token without the content of a string. -/
def Token.hidden : Token → Token
  | .string _ => .string []
  | token => token

/-- An observer that keeps the tokens it sees, without the contents of strings. -/
def collect (seen : List Token) (token : Token) : Option (List Token) := some (seen ++ [token.hidden])

theorem feed_collect (seen ts : List Token) :
    feed collect seen ts = some (seen ++ ts.map Token.hidden) := by
  induction ts generalizing seen with
  | nil => simp [feed]
  | cons t ts ih => simp [feed, collect, ih]

/-- Lines that some observer passes over can be collected, since `collect` refuses no token. -/
theorem passLines_collect {σ : Type} {observe : σ → Token → Option σ} {s t : σ} {lines : List Line}
    (passed : passLines observe s lines = some t) (seen : List Token) :
    ∃ all, passLines collect seen lines = some all :=
  ⟨_, passLines_change passed (feed_collect seen _)⟩

/-- A quoted text is one string, whatever stands before it. -/
theorem passText_quoted (mode : Mode) (seen : List Token) (text : String) :
    passText collect mode seen (Fragment.quoted text).chars = some (.idle, seen ++ [.string []]) := by
  have read := (InString.flatMap inString_escapeChar text.toList).run_quoted
  simp only [Fragment.chars, Fragment.text, quoted_toList, List.cons_append, passText]
  rw [← List.cons_append, read]
  simp [touches, isBoundary, Mode.isSettled, Mode.tail, Mode.finish, feed, collect, Token.hidden]

/-- An observer of tokens does not see what is quoted. -/
theorem pass_blank (place : Mode × List Token) (code : Code) :
    pass collect place (code.map Fragment.blank) = pass collect place code := by
  induction code generalizing place with
  | nil => rfl
  | cons fragment rest ih =>
    have same : passText collect place.1 place.2 fragment.blank.chars =
        passText collect place.1 place.2 fragment.chars := by
      cases fragment with
      | quoted text => simp only [Fragment.blank, passText_quoted]
      | fixed | number | integer | data | comment => rfl
    simp only [List.map_cons, pass, same, ih]

/-- The same for lines. -/
theorem passLines_blank (seen : List Token) (lines : List Line) :
    passLines collect seen (lines.map (Line.seen Fragment.blank)) = passLines collect seen lines := by
  induction lines generalizing seen with
  | nil => rfl
  | cons line lines ih =>
    have same : passLine collect seen (line.seen Fragment.blank) = passLine collect seen line := by
      cases line <;> simp only [Line.seen, passLine, pass_blank]
    simp only [List.map_cons, passLines, same, ih]

/-- Two descriptors with the same lines but for quoted texts. -/
def SameButTexts (d e : Descriptor) : Prop :=
  (d.headLines ++ d.scriptLines ++ d.tailLines).map (Line.seen Fragment.blank) =
    (e.headLines ++ e.scriptLines ++ e.tailLines).map (Line.seen Fragment.blank)

theorem collect_descriptor {d e : Descriptor} (same : SameButTexts d e) (seen : List Token) :
    ∃ all, Observed collect seen d.code.toList all ∧ Observed collect seen e.code.toList all := by
  obtain ⟨all, passed⟩ := passLines_collect (passage_descriptor d [] true) seen
  have other : passLines collect seen (e.headLines ++ e.scriptLines ++ e.tailLines) = some all := by
    rw [← passLines_blank, ← same, passLines_blank, passed]
  exact ⟨all, Observed.writeAll (.nil _) passed, Observed.writeAll (.nil _) other⟩

/-- Descriptors with the same lines but for texts are collected to the same tokens. -/
theorem collect_descriptors {ds es : List Descriptor} (same : List.Forall₂ SameButTexts ds es)
    (seen : List Token) :
    ∃ all, Observed collect seen (String.join (ds.map Descriptor.code)).toList all ∧
      Observed collect seen (String.join (es.map Descriptor.code)).toList all := by
  induction same generalizing seen with
  | nil => exact ⟨seen, .nil _, .nil _⟩
  | cons first _ ih =>
    obtain ⟨part, d, e⟩ := collect_descriptor first seen
    obtain ⟨all, ds, es⟩ := ih part
    refine ⟨all, ?_, ?_⟩
    · rw [List.map_cons, String.join_cons, String.toList_append]
      exact d.append ds
    · rw [List.map_cons, String.join_cons, String.toList_append]
      exact e.append es

/-- Code whose tokens were collected has these tokens. -/
theorem tokens_of_collect {code : String} {all : List Token} (observed : Observed collect [] code.toList all) :
    ∃ ts, tokens code = some ts ∧ ts.map Token.hidden = all := by
  obtain ⟨ts, read, fed⟩ := Option.bind_eq_some_iff.1 observed.feed_tokens
  exact ⟨ts, read, by simpa [feed_collect] using fed⟩

end Lexical

/-! ## Reworded projects -/

/-- Contents of a slot up to a text that stands for no number. -/
inductive Payload.Reworded : Payload → Payload → Prop
  | same (payload : Payload) : Reworded payload payload
  | color (a b : String) : Reworded (.literal .color a) (.literal .color b)
  | broadcast (a b : String) : Reworded (.literal .broadcast a) (.literal .broadcast b)
  | string {a b : String} : Numeral.isNumeric a = false → Numeral.isNumeric b = false →
      Reworded (.literal .string a) (.literal .string b)

structure Input.Reworded (a b : Input) : Prop where
  payload : a.payload.Reworded b.payload
  shadow : Option.Rel Payload.Reworded a.shadow b.shadow

/-- A field in a slot of a block up to the message that a hat waits for. -/
def Field.Reworded (opcode : Opcode) (slot : String) (a b : Field) : Prop :=
  a = b ∨ opcode = .hat .whenBroadcastReceived ∧ slot = "BROADCAST_OPTION" ∧ a.id = b.id

/-- Blocks that differ only in texts. The stored form of a block holds its texts once more. -/
structure Block.Reworded (a b : Block) : Prop where
  inputs : List.Forall₂ (fun s t => s.1 = t.1 ∧ s.2.Reworded t.2) a.inputs b.inputs
  fields : List.Forall₂ (fun s t => s.1 = t.1 ∧ Field.Reworded a.opcode s.1 s.2 t.2) a.fields b.fields
  others : b = { a with inputs := b.inputs, fields := b.fields, source := b.source }

/-- Targets that differ only in their names and in texts. -/
structure Target.Reworded (a b : Target) : Prop where
  blocks : List.Forall₂ Block.Reworded a.graph.blocks b.graph.blocks
  others : b = { a with name := b.name, graph := b.graph }

def Project.Reworded (p q : Project) : Prop := List.Forall₂ Target.Reworded p.targets q.targets

/-- Code that looks the same when quoted texts are hidden, for blocks with the same names. -/
def wording : Likeness where
  view := Fragment.blank
  names := Eq
  unique := by
    rintro a b _ _ rfl rfl
    rfl

namespace Wording

open Outcome Lexical

/-- Texts that may be reworded become quoted texts. -/
theorem samePayload {a b : Payload} (reworded : a.Reworded b) : wording.SamePayload a b := by
  cases reworded with
  | same =>
    cases a with
    | empty => exact .empty
    | literal kind raw => exact .literal rfl rfl fun _ => rfl
    | block id => exact .block rfl
    | «variable» name id => exact .variable name id
    | list name id => exact .list name id
  | color | broadcast => exact .literal rfl rfl (by simp [Compile.isNumber, LiteralKind.isNumeric])
  | string first second =>
    exact .literal rfl (by simp [Compile.isNumber, first, second])
      (by simp [Compile.isNumber, LiteralKind.isNumeric, first])

theorem sameInput {a b : Input} (reworded : a.Reworded b) : wording.SameInput a b where
  payload := samePayload reworded.payload
  covers := by
    have shadow := reworded.shadow
    generalize a.shadow = left at shadow
    generalize b.shadow = right at shadow
    cases shadow <;> rfl

/-- A reworded block has the same inputs and fields but for texts and the messages of hats. -/
theorem sameBlock {a b : Block} (reworded : a.Reworded b) : wording.SameBlock a b := by
  obtain ⟨inputs, fields, others⟩ := reworded
  have held := Likeness.rel_find? (fun _ => wording.SameInput)
    (inputs.imp fun _ _ same => ⟨same.1, sameInput same.2⟩)
  have chosen := Likeness.rel_find? (Field.Reworded a.opcode) fields
  rw [others]
  refine ⟨rfl, rfl, ?_, rfl, held, fun opcode slot => ?_, fun _ => ?_⟩
  · cases a.next with
    | some next => exact .some rfl
    | none => exact .none
  · obtain ⟨left, right⟩ | ⟨f, g, left, right, same⟩ := Likeness.rel_cases (chosen slot)
    · exact left.trans right.symm
    · obtain rfl | ⟨hat, -⟩ := same
      · exact left.trans right.symm
      · exact absurd hat opcode
  · have message := chosen "BROADCAST_OPTION"
    unfold Block.field?
    generalize Keyed.find? a.fields "BROADCAST_OPTION" = f at message ⊢
    generalize Keyed.find? b.fields "BROADCAST_OPTION" = g at message ⊢
    cases message with
    | some _ => exact .some rfl
    | none => exact .none

theorem comesBefore {a b a' b' : Block} (first : a.Reworded b) (second : a'.Reworded b') :
    Graph.comesBefore a a' = Graph.comesBefore b b' := by
  rw [first.others, second.others]
  rfl

theorem sameGraph {a b : Graph} (blocks : List.Forall₂ Block.Reworded a.blocks b.blocks) :
    wording.SameGraph a b := by
  have kept : List.Forall₂ Block.Reworded (a.blocks.filter (·.topLevel)) (b.blocks.filter (·.topLevel)) :=
    List.rel_filter (fun _ _ reworded => by rw [reworded.others]) blocks
  have ordered := Graph.forall₂_inOrder kept comesBefore
  exact .of_blocks (blocks.imp fun _ _ => sameBlock) (ordered.imp fun _ _ => sameBlock)

theorem scriptLines {scripts scripts' : List Script} (same : List.Forall₂ wording.SameScript scripts scripts') :
    wording.SameLines (scripts.flatMap Script.lines) (scripts'.flatMap Script.lines) := by
  induction same with
  | nil => rfl
  | cons first _ ih => simp only [Likeness.SameLines, List.flatMap_cons, List.map_append, first, ih]

/-- The name of a target is one of its quoted texts. -/
theorem sameButTexts (d : Descriptor) (name : String) {scripts : List Script}
    (same : List.Forall₂ wording.SameScript d.scripts scripts) : SameButTexts d { d with name, scripts } := by
  have lines := scriptLines same
  simp only [Likeness.SameLines, wording] at lines
  simp [SameButTexts, Descriptor.headLines, Descriptor.arguments, Descriptor.scriptLines,
    Descriptor.tailLines, Line.seen, Code.quoted, Fragment.blank, lines]

/-- Of a target only its name and the texts of its scripts are reworded. -/
theorem sameDescriptor {a b : Target} (reworded : a.Reworded b) {scripts scripts' : List Script}
    (same : List.Forall₂ wording.SameScript scripts scripts') :
    SameButTexts (Compile.descriptor a scripts) (Compile.descriptor b scripts') := by
  have others : Compile.descriptor b scripts' =
      { Compile.descriptor a scripts with name := b.name, scripts := scripts' } := by
    rw [reworded.others]
    unfold Compile.descriptor
    cases a.isStage <;> rfl
  have held : (Compile.descriptor a scripts).scripts = scripts := by
    unfold Compile.descriptor
    cases a.isStage <;> rfl
  rw [others]
  exact sameButTexts _ _ (by rw [held]; exact same)

theorem target {a b : Target} (reworded : a.Reworded b) :
    Alike SameButTexts (Compile.target a) (Compile.target b) :=
  (Likeness.scripts (sameGraph reworded.blocks)).bind fun _ _ same => .pure (sameDescriptor reworded same)

end Wording

open Lexical in
/-- Reworded projects fail with errors of one kind, or their code has the same tokens up to the contents
of strings. -/
theorem compile_reworded (p q : Project) (reworded : p.Reworded q) :
    (∃ e f, p.compile.result = .error e ∧ q.compile.result = .error f ∧ e.kind = f.kind) ∨
      ∃ code code' ts ts', p.compile.result = .ok code ∧ q.compile.result = .ok code' ∧
        tokens code = some ts ∧ tokens code' = some ts' ∧ ts.map Token.hidden = ts'.map Token.hidden := by
  have ordered : List.Forall₂ Target.Reworded p.inCodeOrder q.inCodeOrder :=
    Project.forall₂_inCodeOrder reworded fun _ _ same => by rw [same.others]
  have descriptors := Outcome.Alike.forAll ordered fun _ _ => Wording.target
  have codes : Outcome.Alike (fun code code' => ∃ all, Observed collect [] code.toList all ∧
      Observed collect [] code'.toList all) p.compile q.compile :=
    descriptors.bind fun _ _ same => .pure (collect_descriptors same [])
  obtain ⟨result, -⟩ := codes
  generalize p.compile.result = left at result ⊢
  generalize q.compile.result = right at result ⊢
  cases result with
  | error kinds => exact .inl ⟨_, _, rfl, rfl, kinds⟩
  | ok collected =>
    obtain ⟨all, first, second⟩ := collected
    obtain ⟨ts, read, seen⟩ := tokens_of_collect first
    obtain ⟨ts', read', seen'⟩ := tokens_of_collect second
    exact .inr ⟨_, _, ts, ts', rfl, rfl, read, read', seen.trans seen'.symm⟩

/-- A sprite that waits for a message, says a text for as many seconds as the text says, and sends a
message. -/
def greeting (name message text : String) : Project :=
  let hat := Compile.linkedBlock "hat" (.hat .whenBroadcastReceived) [] (some "say")
  let say := Compile.linkedBlock "say" (.command .sayForSeconds) [] (some "send")
  let send := Compile.linkedBlock "send" (.command .broadcast) [] none
  ⟨[{ Compile.spriteOf
      [{ hat with fields := [("BROADCAST_OPTION", ⟨message, none⟩)] },
       { say with
         inputs := [("MESSAGE", ⟨.literal .string text, none⟩), ("SECS", ⟨.literal .string text, none⟩)] },
       { send with inputs := [("BROADCAST_INPUT", ⟨.literal .broadcast message, none⟩)] }] with name }]⟩

/-- Names, messages and texts that are no numbers can be reworded. -/
theorem reworded_greeting (name name' message message' : String) {text text' : String}
    (first : Numeral.isNumeric text = false) (second : Numeral.isNumeric text' = false) :
    (greeting name message text).Reworded (greeting name' message' text') := by
  have hat : Field.Reworded (.hat .whenBroadcastReceived) "BROADCAST_OPTION" ⟨message, none⟩ ⟨message', none⟩ :=
    .inr ⟨rfl, rfl, rfl⟩
  have said : Input.Reworded ⟨.literal .string text, none⟩ ⟨.literal .string text', none⟩ :=
    ⟨.string first second, .none⟩
  have sent : Input.Reworded ⟨.literal .broadcast message, none⟩ ⟨.literal .broadcast message', none⟩ :=
    ⟨.broadcast _ _, .none⟩
  refine .cons ⟨.cons ⟨.nil, .cons ⟨rfl, hat⟩ .nil, rfl⟩ (.cons ?_ (.cons ?_ .nil)), rfl⟩ .nil
  · exact ⟨.cons ⟨rfl, said⟩ (.cons ⟨rfl, said⟩ .nil), .nil, rfl⟩
  · exact ⟨.cons ⟨rfl, sent⟩ .nil, .nil, rfl⟩

open Lexical in
/-- Texts that would end the string or the line that they stand in leave the tokens as they are. -/
theorem compile_reworded_greeting :
    (greeting "Cat" "start" "hello").Reworded (greeting "\"\n\u2028*/" "\\\"\r" "\"); alert(1); (\"") ∧
      ∃ code code' ts ts', (greeting "Cat" "start" "hello").compile.result = .ok code ∧
        (greeting "\"\n\u2028*/" "\\\"\r" "\"); alert(1); (\"").compile.result = .ok code' ∧
        tokens code = some ts ∧ tokens code' = some ts' ∧ ts.map Token.hidden = ts'.map Token.hidden := by
  have reworded := reworded_greeting "Cat" "\"\n\u2028*/" "start" "\\\"\r"
    (by decide +kernel : Numeral.isNumeric "hello" = false)
    (by decide +kernel : Numeral.isNumeric "\"); alert(1); (\"" = false)
  have compiles : (greeting "Cat" "start" "hello").compile.result.toBool = true := by decide +kernel
  obtain ⟨e, _, failed, -⟩ | tokens := compile_reworded _ _ reworded
  · rw [failed] at compiles
    cases compiles
  · exact ⟨reworded, tokens⟩

end ScratchPage
