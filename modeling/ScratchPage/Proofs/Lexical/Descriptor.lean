import ScratchPage.Code.Descriptor
import ScratchPage.Proofs.Lexical.Statement

/-!
# The code of targets

Scripts are asynchronous functions inside the constructor of their target, which is not asynchronous.
The code of a target closes what it opens, so the code of several targets can be read one after the
other, and the waits of their scripts alone decide whether every `await` is in an asynchronous
function.
-/

namespace ScratchPage
set_option autoImplicit false

namespace Script

def body : Script → List Statement
  | .whenFlagClicked body => body
  | .whenReceived _ body => body
  | .whenCloned body => body
  | .procedure _ body => body

/-- The durations of the waits in a script. -/
def waits (script : Script) : List Operand := Statement.chainWaits script.body

end Script

/-- The durations of the waits in the scripts of a target. -/
def Descriptor.waits (d : Descriptor) : List Operand := d.scripts.flatMap Script.waits

namespace Lexical

/-- The lines of a script are a passage of the constructor. -/
theorem passage_script (script : Script) : Passage false script.lines (script.waits.any Operand.awaits) := by
  intro outer sound
  obtain ⟨_, inside⟩ := (passage_chain script.body).passed
  cases script with
  | whenFlagClicked body | whenCloned body =>
    simp only [Script.body] at inside
    simp only [Script.lines, screenRefresh, passLines_append, passLines, passLine, pass_singleton, inside,
      Script.waits, Script.body]
    repeat rw [Fragment.chars_fixed]
    rfl
  | whenReceived message body =>
    obtain ⟨_, _, name⟩ := (Phrase.quoted message).passed
    simp only [Script.body] at inside
    simp only [Script.lines, screenRefresh, passLines_append, passLines, passLine, pass_append,
      pass_singleton, name, inside, Script.waits, Script.body]
    repeat rw [Fragment.chars_fixed]
    rfl
  | procedure signature body =>
    obtain ⟨_, _, name⟩ := (Phrase.quoted signature.code).passed
    obtain ⟨_, _, ids⟩ := (Phrase.data (.array (signature.argumentIds.map Json.string))).passed
    obtain ⟨_, _, names⟩ := (Phrase.data (.array (signature.argumentNames.map Json.string))).passed
    simp only [Script.body] at inside
    simp only [Script.lines, Script.textArray, passLines_append, passLines, passLine, pass_append,
      pass_singleton, name, ids, names, inside, Script.waits, Script.body, Context.await_false]
    repeat rw [Fragment.chars_fixed]
    rfl

/-- The run over the scripts of a target. -/
theorem passage_scripts (scripts : List Script) :
    Passage false (scripts.flatMap Script.lines)
      ((scripts.flatMap Script.waits).any Operand.awaits) := by
  induction scripts with
  | nil => exact .nil
  | cons script scripts ih =>
    rw [List.flatMap_cons, List.flatMap_cons, List.any_append]
    exact (passage_script script).append ih

/-- The lines that store what all sprites share. -/
theorem passage_global {store : String} (known : store = "globalVariables" ∨ store = "globalLists")
    (values : List (String × Json)) : Passage true (Descriptor.globalLines store values) false := by
  intro outer sound
  induction values with
  | nil => rfl
  | cons pair values ih =>
    obtain ⟨id, value⟩ := pair
    obtain ⟨_, _, name⟩ := (Phrase.quoted id).passed
    obtain ⟨_, _, content⟩ := (Phrase.data value).passed
    simp only [Descriptor.globalLines, List.map_cons, passLines, passLine, pass_append, pass_singleton,
      name, content]
    rcases known with rfl | rfl <;>
    · repeat rw [Fragment.chars_fixed]
      exact ih

theorem phrase_flag (b : Bool) : Phrase (Descriptor.flag b) false :=
  .of_value (by cases b <;> exact .of_run rfl rfl (by decide) (by decide))

theorem phrase_argument (d : Descriptor) : ∀ code ∈ d.arguments, ∃ awaits, Phrase code awaits := by
  simp only [Descriptor.arguments, List.mem_cons, List.not_mem_nil, or_false, forall_eq_or_imp, forall_eq]
  exact ⟨⟨_, .quoted _⟩, ⟨_, .number _⟩, ⟨_, .number _⟩, ⟨_, .number _⟩, ⟨_, .number _⟩, ⟨_, .data _⟩,
    ⟨_, .integer _⟩, ⟨_, .quoted _⟩, ⟨_, .data _⟩, ⟨_, .data _⟩, ⟨_, phrase_flag _⟩⟩

/-- The lines of a target are a passage. -/
theorem passage_descriptor (d : Descriptor) :
    Passage true (d.headLines ++ d.scriptLines ++ d.tailLines) (d.waits.any Operand.awaits) := by
  intro outer sound
  obtain ⟨_, globals⟩ := (passage_global (.inl rfl) d.globalVariables).passed
  obtain ⟨_, lists⟩ := (passage_global (.inr rfl) d.globalLists).passed
  obtain ⟨_, given⟩ := (Passage.items (fun code => code) d.arguments (phrase_argument d)).passed
  obtain ⟨_, scripts⟩ := (passage_scripts d.scripts).passed
  obtain ⟨_, _, visible⟩ := (phrase_flag d.visible).passed
  simp only [Descriptor.headLines, Descriptor.scriptLines, Descriptor.tailLines, passLines_append, passLines,
    passLine, pass_append, globals, lists, given, scripts, visible, Descriptor.waits]
  simp only [pass_singleton]
  repeat rw [Fragment.chars_fixed]
  rfl

end Lexical

end ScratchPage
