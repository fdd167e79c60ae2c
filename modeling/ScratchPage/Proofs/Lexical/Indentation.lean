import ScratchPage.Proofs.Compile.Tracked
import ScratchPage.Proofs.Lexical.Rows

/-!
# Indentation

A line that closes a group goes one level back. On the outermost level there is nothing to go back to, and
a writer that is asked to stays where it is, so a group that is closed once too often would not be noticed.
Here the level of a writer is counted from a ground that may not be left (`climb`). The lines of statements
and scripts come back to the level they start at and close no group there; so wherever they are written,
the writer stands where it stood before, has kept its lines and has put none further left (`Writer.Indents`).
The code of a target is written in three parts, and each part goes on at the level where the one before it
has ended.
-/

namespace ScratchPage
set_option autoImplicit false

namespace Line

/-- The line closes a group. -/
def closes : Line → Bool
  | .closing _ => true
  | .switching _ => true
  | _ => false

/-- The height of the writer above the ground after a line; there is none if the line closes a group on the
ground. -/
def climb : Line → Nat → Option Nat
  | .plain _, height => some height
  | .remark _, height => some height
  | .opening _, height => some (height + 1)
  | .closing _, 0 => none
  | .closing _, height + 1 => some height
  | .switching _, 0 => none
  | .switching _, height + 1 => some (height + 1)

end Line

namespace Lexical

/-! ## Heights -/

/-- The height above the ground after lines. -/
def climb (height : Nat) : List Line → Option Nat
  | [] => some height
  | line :: rest => (line.climb height).bind fun next => climb next rest

/-- A climb goes on where it has stopped. -/
theorem climb_append (height : Nat) (a b : List Line) :
    climb height (a ++ b) = (climb height a).bind fun next => climb next b := by
  induction a generalizing height with
  | nil => rfl
  | cons line a ih =>
    simp only [List.cons_append, climb, Option.bind_assoc]
    cases line.climb height with
    | none => rfl
    | some next => exact ih next

/-- Lines that come back to the height they start at and close no group there, whatever that height is. -/
def Balanced (lines : List Line) : Prop := ∀ height, climb height lines = some height

namespace Balanced

theorem nil : Balanced [] := fun _ => rfl

theorem append {a b : List Line} (first : Balanced a) (second : Balanced b) : Balanced (a ++ b) := by
  intro height
  rw [climb_append, first, Option.bind_some, second]

theorem plain (code : Code) : Balanced [.plain code] := fun _ => rfl

/-- Lines between one that opens a group and one that closes it. -/
theorem group {body : List Line} (inside : Balanced body) (head last : Code) :
    Balanced ([.opening head] ++ body ++ [.closing last]) := by
  intro height
  have opened : climb height [.opening head] = some (height + 1) := rfl
  rw [climb_append, climb_append, opened, Option.bind_some, inside, Option.bind_some]
  rfl

/-- Two groups of which one begins on the line that closes the other. -/
theorem groups {body other : List Line} (first : Balanced body) (second : Balanced other)
    (head between last : Code) :
    Balanced ([.opening head] ++ body ++ [.switching between] ++ other ++ [.closing last]) := by
  intro height
  have opened : climb height [.opening head] = some (height + 1) := rfl
  have switched : climb (height + 1) [.switching between] = some (height + 1) := rfl
  rw [climb_append, climb_append, climb_append, climb_append, opened, Option.bind_some, first, Option.bind_some,
    switched, Option.bind_some, second, Option.bind_some]
  rfl

theorem flatMap {α : Type} {lines : α → List Line} (each : ∀ a, Balanced (lines a)) (items : List α) :
    Balanced (items.flatMap lines) := by
  induction items with
  | nil => exact nil
  | cons a items ih => exact (each a).append ih

theorem items {α : Type} (code : α → Code) (items : List α) : Balanced (items.map fun a => .plain (code a)) := by
  rw [List.map_eq_flatMap]
  exact flatMap (fun a => plain (code a)) items

end Balanced

/-! ## Statements and scripts -/

theorem balanced_action (act : Action) : Balanced act.lines := by
  cases act with
  | call code arguments =>
    have array := (Balanced.items (fun a : Operand => a.code ++ ",") arguments).group "const methodArgs = [" "];"
    have guarded := (Balanced.plain "await (procInfo.method)(methodArgs, procInfo.argumentnames);").group
      ("if (" ++ "procInfo" ++ ") \x7b") "\x7d"
    exact ((Balanced.plain _).append array).append guarded
  | _ => exact fun _ => rfl

theorem balanced_loop {body : List Line} (inside : Balanced body) (head : Code) : Balanced (loopLines head body) := by
  have turn := (inside.append (.plain screenRefresh)).group head "\x7d"
  rw [loopLines]
  simpa using turn

mutual

/-- The step for statements: each loop closes the brace that it opens. -/
theorem balanced_body : (statement : Statement) → Balanced statement.bodyLines
  | .action act => balanced_action act
  | .forever body => balanced_loop (balanced_chain body) _
  | .repeatTimes times body => by
    have turns := balanced_loop ((balanced_chain body).append (.plain "_i++;")) "while (_i < _times) \x7b"
    exact ((Balanced.plain _).append (.plain _)).append turns
  | .repeatUntil condition body => balanced_loop (balanced_chain body) _
  | .waitUntil condition => balanced_loop .nil _
  | .branch condition body => (balanced_chain body).group _ _
  | .branchElse condition body other => (balanced_chain body).groups (balanced_chain other) _ _ _

theorem balanced_chain : (statements : List Statement) → Balanced (Statement.chainLines statements)
  | [] => .nil
  | statement :: rest => ((balanced_body statement).group _ _).append (balanced_chain rest)

end

theorem balanced_statement (statement : Statement) : Balanced statement.lines :=
  (balanced_body statement).group _ _

/-- The step for scripts: the lines around the statements open and close. -/
theorem balanced_script (script : Script) : Balanced script.lines := by
  cases script with
  | whenFlagClicked body =>
    have inner := ((balanced_chain body).append (.plain screenRefresh)).group "if (!isClone) \x7b" "\x7d"
    have outer := inner.group "onStartListeners.push((async function() \x7b" "\x7d).bind(this));"
    simpa [Script.lines] using outer
  | whenReceived message body =>
    have inner := ((balanced_chain body).append (.plain screenRefresh)).group
      "\"callback\": (async function() \x7b" "\x7d).bind(this)"
    have outer := ((Balanced.plain ("\"name\": " ++ Code.quoted message ++ ",")).append inner).group
      "broadcastListeners.push(\x7b" "\x7d);"
    simpa [Script.lines] using outer
  | whenCloned body =>
    have inner := ((balanced_chain body).append (.plain screenRefresh)).group
      "this.onStartAsClone.push((async function() \x7b" "\x7d).bind(this));"
    simpa [Script.lines] using inner
  | procedure signature body =>
    have inner := (balanced_chain body).group "method: (async function(argsMethodArgs, argsArgMapping) \x7b"
      "\x7d).bind(this),"
    have lists := (Balanced.plain ("argumentids: " ++ Script.textArray signature.argumentIds ++ ",")).append
      (.plain ("argumentnames: " ++ Script.textArray signature.argumentNames ++ ","))
    have outer := (inner.append lists).group
      ("this.definedProcedures.set(" ++ Code.quoted signature.code ++ ", \x7b") "\x7d);"
    simpa [Script.lines] using outer

/-! ## The parts of a target -/

/-- Before the scripts three groups are opened. -/
theorem climb_headLines (d : Descriptor) : climb 0 d.headLines = some Descriptor.scriptLevel := by
  have global (store : String) (values : List (String × Json)) : Balanced (Descriptor.globalLines store values) :=
    .items (fun entry : String × Json => store ++ ".set(" ++ Code.quoted entry.1 ++ ", " ++ Code.data entry.2 ++ ");")
      values
  have given : Balanced (d.arguments.map fun a => .plain (a ++ ",")) := .items (fun a : Code => a ++ ",") d.arguments
  have opened : climb 0 [.opening "targets.push(\x7b", .opening "ctor: await createSpriteConstructor("] = some 2 := rfl
  rw [Descriptor.headLines, climb_append, climb_append, climb_append, climb_append, global, Option.bind_some, global,
    Option.bind_some, opened, Option.bind_some, given, Option.bind_some]
  rfl

/-- After the scripts they are closed. -/
theorem climb_tailLines (d : Descriptor) : climb Descriptor.scriptLevel d.tailLines = some 0 := rfl

theorem balanced_scriptLines (d : Descriptor) : Balanced d.scriptLines := .flatMap balanced_script d.scripts

end Lexical

namespace Writer

/-! ## Writing -/

/-- Writing the lines leaves the writer at `level`. The lines it had are kept; those that are added stand at
the ground or further right, and no group is closed on the ground. -/
structure Indents (w : Writer) (ground : Nat) (lines : List Line) (level : Nat) : Prop where
  ends : (w.writeAll lines).level = level
  appends : ∃ written : List String, (w.writeAll lines).lines.toList = w.lines.toList ++ written ∧
    List.Forall₂ (fun text line => ∃ own, ground ≤ own ∧ text = indentation own ++ String.ofList line.content)
      written lines
  closesAbove : ∀ before line after, lines = before ++ line :: after → line.closes = true →
    ground < (w.writeAll before).level

/-- Writing the lines leaves the writer at the level where it is, and no line leaves that level to the left. -/
def Keeps (w : Writer) (lines : List Line) : Prop := w.Indents w.level lines w.level

@[simp] theorem level_put (w : Writer) (text : String) : (w.put text).level = w.level := rfl

@[simp] theorem level_indent (w : Writer) : w.indent.level = w.level + 1 := rfl

@[simp] theorem level_outdent (w : Writer) : w.outdent.level = w.level - 1 := rfl

@[simp] theorem lines_put (w : Writer) (text : String) :
    (w.put text).lines = w.lines.push (indentation w.level ++ text) := rfl

@[simp] theorem lines_indent (w : Writer) : w.indent.lines = w.lines := rfl

@[simp] theorem lines_outdent (w : Writer) : w.outdent.lines = w.lines := rfl

@[simp] theorem text_indent (w : Writer) : w.indent.text = w.text := rfl

@[simp] theorem text_outdent (w : Writer) : w.outdent.text = w.text := rfl

theorem writeAll_cons (w : Writer) (line : Line) (lines : List Line) :
    w.writeAll (line :: lines) = (w.write line).writeAll lines := rfl

/-- What one line does to a writer that stands above the ground. -/
theorem write_climb {w : Writer} {line : Line} {ground height next : Nat} (stands : w.level = ground + height)
    (climbs : line.climb height = some next) :
    (w.write line).level = ground + next ∧
      (∃ own, ground ≤ own ∧ (w.write line).lines.toList =
        w.lines.toList ++ [indentation own ++ String.ofList line.content]) ∧
      (line.closes = true → ground < w.level) := by
  cases line with
  | plain code | remark text =>
    cases climbs
    refine ⟨stands, ⟨w.level, by omega, ?_⟩, by simp [Line.closes]⟩
    simp only [write, lines_put, Line.content, String.ofList_toList, Array.toList_push]
  | opening code =>
    cases climbs
    refine ⟨?_, ⟨w.level, by omega, by simp [write, Line.content]⟩, by simp [Line.closes]⟩
    simp only [write, level_indent, level_put]
    omega
  | closing code | switching code =>
    cases height with
    | zero => cases climbs
    | succ height =>
      -- The writer stands above the ground, so one level back is not too far.
      cases climbs
      refine ⟨?_, ⟨w.level - 1, by omega, by simp [write, Line.content]⟩, fun _ => by omega⟩
      simp only [write, level_indent, level_outdent, level_put]
      omega

/-- What lines do to a writer that stands above the ground. -/
theorem indents_of_climb {lines : List Line} {w : Writer} {ground height last : Nat}
    (stands : w.level = ground + height) (climbs : Lexical.climb height lines = some last) :
    w.Indents ground lines (ground + last) := by
  induction lines generalizing w height with
  | nil =>
    cases climbs
    exact ⟨stands, ⟨[], by simp [writeAll], .nil⟩, by simp⟩
  | cons line lines ih =>
    obtain ⟨next, first, rest⟩ := Option.bind_eq_some_iff.1 climbs
    obtain ⟨level, ⟨own, right, put⟩, above⟩ := write_climb stands first
    obtain ⟨ends, ⟨written, appended, each⟩, closesAbove⟩ := ih level rest
    refine ⟨ends, ⟨(indentation own ++ String.ofList line.content) :: written, ?_, .cons ⟨own, right, rfl⟩ each⟩, ?_⟩
    · rw [writeAll_cons, appended, put, List.append_assoc, List.singleton_append]
    · intro before other after split closes
      cases before with
      | nil =>
        obtain ⟨rfl, -⟩ := List.cons.inj split
        exact above closes
      | cons _ before =>
        obtain ⟨rfl, others⟩ := List.cons.inj split
        exact closesAbove before other after others closes

theorem keeps_of_balanced {lines : List Line} (balanced : Lexical.Balanced lines) (w : Writer) : w.Keeps lines :=
  indents_of_climb (Nat.add_zero w.level).symm (balanced 0)

/-- A line does the same to two writers of one level, whatever text one of them has in front. -/
theorem write_behind {u v : Writer} {front : String} (level : u.level = v.level) (text : u.text = front ++ v.text)
    (line : Line) :
    (u.write line).level = (v.write line).level ∧ (u.write line).text = front ++ (v.write line).text := by
  cases line <;> simp [write, put_text, text, level, String.append_assoc]

theorem writeAll_behind {u v : Writer} {front : String} (level : u.level = v.level) (text : u.text = front ++ v.text)
    (lines : List Line) : (u.writeAll lines).text = front ++ (v.writeAll lines).text := by
  induction lines generalizing u v with
  | nil => exact text
  | cons line lines ih =>
    obtain ⟨same, behind⟩ := write_behind level text line
    exact ih same behind

/-- Lines can be written by a new writer of the same level, and their texts joined. -/
theorem text_writeAll (w : Writer) (lines : List Line) :
    (w.writeAll lines).text = w.text ++ ((start w.level).writeAll lines).text := by
  have level : w.level = (start w.level).level := rfl
  have text : w.text = w.text ++ (start w.level).text := by simp [start, Writer.text]
  exact writeAll_behind level text lines

theorem writeAll_append (w : Writer) (a b : List Line) : w.writeAll (a ++ b) = (w.writeAll a).writeAll b :=
  List.foldl_append

end Writer

/-! ## The parts of the code of a target -/

theorem indents_headLines (d : Descriptor) :
    (Writer.start 0).Indents 0 d.headLines Descriptor.scriptLevel := by
  have stands : (Writer.start 0).level = 0 + 0 := rfl
  have head := Writer.indents_of_climb stands (Lexical.climb_headLines d)
  rwa [Nat.zero_add] at head

theorem indents_tailLines (d : Descriptor) :
    (Writer.start Descriptor.scriptLevel).Indents 0 d.tailLines 0 := by
  have stands : (Writer.start Descriptor.scriptLevel).level = 0 + Descriptor.scriptLevel := rfl
  exact Writer.indents_of_climb stands (Lexical.climb_tailLines d)

/-- Each part of the code goes on at the level where the part before it has ended, so the parts can be written
by writers of their own. -/
theorem code_eq_join (d : Descriptor) :
    d.code = ((Writer.start 0).writeAll d.headLines).text ++ d.scriptCode ++
      ((Writer.start Descriptor.scriptLevel).writeAll d.tailLines).text := by
  have head := (indents_headLines d).ends
  have inside := (Writer.keeps_of_balanced (Lexical.balanced_scriptLines d)
    ((Writer.start 0).writeAll d.headLines)).ends
  rw [Descriptor.code, Writer.writeAll_append, Writer.writeAll_append, Writer.text_writeAll, inside,
    Writer.text_writeAll _ d.scriptLines, head]
  rfl

namespace Compile

/-- Blocks become lines that keep their place. Writing the statement of a block, the statements of a slot or
of a chain, or the script of a top-level block leaves every writer at the level where it is; lines are only
appended, none of them further left than this level, and no group is closed on it. The code of a target is
joined from three parts with a writer each: the first one ends at the level of the scripts, the scripts keep
it, and the last writer starts from it and ends on the outermost level, where no group is closed. -/
theorem compiled_keeps_level (scope : Scope) (active : List BlockId) (w : Writer) :
    (∀ id, (statement scope active id).Yields fun st => w.Keeps st.lines) ∧
    (∀ (stack : BlockId → Outcome (List Statement)) (owner : Block) (slot : String),
      (substack stack owner slot).Yields fun body => w.Keeps (Statement.chainLines body)) ∧
    (∀ start, (chainOf scope.target.graph (statement scope active) start).Yields fun body =>
      w.Keeps (Statement.chainLines body)) ∧
    (∀ hat, (script chain scope hat).Yields fun found => w.Keeps (found.toList.flatMap Script.lines)) ∧
    ∀ d : Descriptor,
      (Writer.start 0).Indents 0 d.headLines Descriptor.scriptLevel ∧
      (Writer.start Descriptor.scriptLevel).Keeps d.scriptLines ∧
      (Writer.start Descriptor.scriptLevel).Indents 0 d.tailLines 0 ∧
      d.code = ((Writer.start 0).writeAll d.headLines).text ++ d.scriptCode ++
        ((Writer.start Descriptor.scriptLevel).writeAll d.tailLines).text := by
  -- The lines of every statement are balanced, so nothing need be known of the block it was made from.
  refine ⟨fun id st _ => ?_, fun stack owner slot body _ => ?_, fun start body _ => ?_, fun hat found _ => ?_,
    fun d => ?_⟩
  · exact Writer.keeps_of_balanced (Lexical.balanced_statement st) w
  · exact Writer.keeps_of_balanced (Lexical.balanced_chain body) w
  · exact Writer.keeps_of_balanced (Lexical.balanced_chain body) w
  · exact Writer.keeps_of_balanced (.flatMap Lexical.balanced_script found.toList) w
  · exact ⟨indents_headLines d, Writer.keeps_of_balanced (Lexical.balanced_scriptLines d) _, indents_tailLines d,
      code_eq_join d⟩

/-- A loop around a choice between two commands. -/
def choiceInLoop : Target :=
  spriteOf
    [linkedBlock "hat" (.hat .whenFlagClicked) [] (some "loop"),
     linkedBlock "loop" (.command .forever) [("SUBSTACK", "choice")] none,
     linkedBlock "choice" (.command .branchElse)
       [("CONDITION", "test"), ("SUBSTACK", "show"), ("SUBSTACK2", "hide")] none,
     linkedBlock "show" (.command .showSprite) [] none,
     linkedBlock "hide" (.command .hideSprite) [] none,
     linkedBlock "test" (.reporter .mouseDown) [] none]

/-- The writer is back at its level after the seven lines that close something. -/
theorem compiled_keeps_level_choice :
    ∃ st, (statement ⟨choiceInLoop, [], none⟩ [] ⟨"loop"⟩).result = .ok st ∧
      st.lines.countP Line.closes = 7 ∧ (Writer.start 2).Keeps st.lines := by
  have found : (statement ⟨choiceInLoop, [], none⟩ [] ⟨"loop"⟩).result.toOption.map
      (fun st => st.lines.countP Line.closes) = some 7 := by decide +kernel
  cases compiled : (statement ⟨choiceInLoop, [], none⟩ [] ⟨"loop"⟩).result with
  | error e =>
    rw [compiled] at found
    cases found
  | ok st =>
    rw [compiled] at found
    exact ⟨st, rfl, Option.some.inj found,
      (compiled_keeps_level ⟨choiceInLoop, [], none⟩ [] (.start 2)).1 ⟨"loop"⟩ st compiled⟩

end Compile

end ScratchPage
