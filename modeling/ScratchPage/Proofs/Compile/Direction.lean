import Mathlib.Tactic.Linarith
import ScratchPage.Compile.Target
import ScratchPage.Proofs.Compile.Tracked
import ScratchPage.Proofs.Lexical.Arguments
import ScratchPage.Proofs.Lexical.Arithmetic
import ScratchPage.Proofs.Lexical.Scopes

/-!
# Directions

The editor counts directions clockwise from above, the page anticlockwise from the right. Three formulas convert
them: that of descriptors, that of the code which points a sprite and that of the code which reports where it
points. With exact numbers the first two are one function (`exactDirection`), and what the third gives for it
(`editorDirection`) is the direction itself up to whole turns. One turn is added or taken away at most, so the
result is in the range of the editor for directions up to a turn outside that range, and for no others.
-/

namespace ScratchPage
set_option autoImplicit false

open Lexical Arithmetic

/-! ## The conversions -/

/-- The direction of the page for a direction of the editor, with exact numbers. -/
def exactDirection (d : ℚ) : ℚ := pageDirection (fun x => decide (0 < x)) d

/-- The direction of the editor for a direction of the page, with exact numbers. -/
def editorDirection (s : ℚ) : ℚ := if 90 - s ≤ -180 then 450 - s else 90 - s

theorem exactDirection_of_lt {d : ℚ} (small : d < 90) : exactDirection d = 90 - d :=
  if_pos (by simpa using small)

theorem exactDirection_of_ge {d : ℚ} (large : 90 ≤ d) : exactDirection d = 450 - d :=
  if_neg (by simpa using large)

/-- Which turn is added on the way there and back. -/
theorem editorDirection_exactDirection (d : ℚ) :
    editorDirection (exactDirection d) = if d ≤ -180 then d + 360 else if d ≤ 180 then d else d - 360 := by
  -- From 90 on the way there adds a turn.
  obtain small | large := lt_or_ge d 90
  · rw [exactDirection_of_lt small, editorDirection]
    split_ifs <;> linarith
  · rw [exactDirection_of_ge large, editorDirection]
    split_ifs <;> linarith

theorem exists_turn (d : ℚ) : ∃ k : ℤ, editorDirection (exactDirection d) = d + 360 * k := by
  rw [editorDirection_exactDirection]
  split_ifs
  · exact ⟨1, by norm_num⟩
  · exact ⟨0, by norm_num⟩
  · exact ⟨-1, by norm_num; ring⟩

/-- The direction that is read back is in the range of the editor for angles within a turn and a half. -/
theorem editorDirection_mem_iff (d : ℚ) :
    -180 < editorDirection (exactDirection d) ∧ editorDirection (exactDirection d) ≤ 180 ↔ -540 < d ∧ d ≤ 540 := by
  rw [editorDirection_exactDirection]
  split_ifs
  all_goals
    constructor
    all_goals
      rintro ⟨low, high⟩
      constructor <;> linarith

theorem editorDirection_eq_iff (d : ℚ) : editorDirection (exactDirection d) = d ↔ -180 < d ∧ d ≤ 180 := by
  rw [editorDirection_exactDirection]
  split_ifs with below above
  · exact iff_of_false (by linarith) fun inside => by linarith [inside.1]
  · exact iff_of_true rfl ⟨by linarith, above⟩
  · exact iff_of_false (by linarith) fun inside => above inside.2

/-! ## The formulas -/

/-- The constant that the code which points a sprite declares. -/
def anglePlace : Place := [Helper.direction.word]

/-- The property that holds the direction of a sprite. -/
def directionPlace : Place := [['t', 'h', 'i', 's'], Helper.direction.word]

/-- A number less what a place holds. -/
def less (n : ℕ) (path : Place) : Expression := .binary .minus (.number ⟨n, 0⟩) (.place path)

def pageFormula : Expression :=
  .choice (.binary .above (less 90 anglePlace) (.number ⟨0, 0⟩)) (less 90 anglePlace) (less 450 anglePlace)

def editorFormula : Expression :=
  .choice (.binary .atMost (less 90 directionPlace) (.binary .minus (.number ⟨0, 0⟩) (.number ⟨180, 0⟩)))
    (less 450 directionPlace) (less 90 directionPlace)

section

variable {store : Store} {x : ℚ}

theorem value_less (n : ℕ) {path : Place} (held : store path = some x) :
    (less n path).value store = some (.number (n - x)) :=
  Expression.value_binary .minus (Expression.value_number n) (Expression.value_place held)

theorem value_pageFormula (held : store anglePlace = some x) :
    pageFormula.value store = some (.number (exactDirection x)) := by
  have condition := Expression.value_binary .above (value_less 90 held) (Expression.value_number 0)
  rw [pageFormula, Expression.value_choice condition, value_less 90 held, value_less 450 held, exactDirection,
    pageDirection]
  push_cast
  split_ifs <;> rfl

/-- The formula for the editor computes the direction in the editor. -/
theorem value_editorFormula (held : store directionPlace = some x) :
    editorFormula.value store = some (.number (editorDirection x)) := by
  have bound : (Expression.binary .minus (.number ⟨0, 0⟩) (.number ⟨180, 0⟩)).value store =
      some (.number ((0 : ℕ) - (180 : ℕ))) :=
    Expression.value_binary .minus (Expression.value_number 0) (Expression.value_number 180)
  have condition := Expression.value_binary .atMost (value_less 90 held) bound
  rw [editorFormula, Expression.value_choice condition, value_less 90 held, value_less 450 held, editorDirection]
  push_cast
  simp only [decide_eq_true_eq, zero_sub]
  split_ifs <;> rfl

end

/-! ## The code -/

theorem expression?_editor : (tokens Operand.direction.code.text).bind expression? = some editorFormula := by
  decide +kernel

/-- The code of a reporter computes the direction of the editor. -/
theorem number?_reported {store : Store} {s : ℚ} (held : store directionPlace = some s) :
    (tokens Operand.direction.code.text).bind (number? store) = some (editorDirection s) := by
  obtain ⟨own, read, parsed⟩ := Option.bind_eq_some_iff.1 expression?_editor
  rw [read, Option.bind_some, number?, parsed, Option.bind_some, value_editorFormula held]
  rfl

/-- The line that declares the constant. -/
def angleLine (angle : Operand) : Line := .plain ("const direction = " ++ angle.code ++ ";")

/-- The line that stores the direction. -/
def pageLine : Line :=
  .plain "this.direction = (90 - direction > 0) ? (90 - direction) : (450 - direction);"

theorem tokens_angleLine (angle : Operand) : (angleLine angle).tokens =
    .word constWord :: .word Helper.direction.word :: .sign ['='] :: (angle.code.tokens ++ [.sign [';']]) := by
  simp only [angleLine, Line.tokens, Code.tokens_append, Code.tokens_singleton]
  repeat rw [Fragment.tokens_fixed]
  rfl

theorem tokens_pageLine : ∃ own, expression? own = some pageFormula ∧
    pageLine.tokens = .word ['t', 'h', 'i', 's'] :: .sign ['.'] :: .word Helper.direction.word :: .sign ['='] ::
      (own ++ [.sign [';']]) :=
  ⟨(pageLine.tokens.drop 4).dropLast, by decide +kernel, by decide +kernel⟩

theorem run_angleLine {store : Store} {angle : Operand} {d : ℚ} (computed : number? store angle.code.tokens = some d) :
    runTokens store (angleLine angle).tokens = some (Function.update store anglePlace (some d)) := by
  rw [tokens_angleLine]
  exact runTokens_constant computed _

/-- The line that stores the direction computes it from the constant before it. -/
theorem run_pageLine {store : Store} {d : ℚ} (held : store anglePlace = some d) :
    runTokens store pageLine.tokens = some (Function.update store directionPlace (some (exactDirection d))) := by
  obtain ⟨own, parsed, split⟩ := tokens_pageLine
  have computed : number? store own = some (exactDirection d) := by
    rw [number?, parsed, Option.bind_some, value_pageFormula held]
    rfl
  rw [split]
  exact runTokens_property computed (by decide) _

/-- The code that points a sprite stores the direction of the page. -/
theorem run_pointing {store : Store} {angle : Operand} {d : ℚ}
    (computed : (tokens angle.code.text).bind (number? store) = some d) :
    runLines store (Action.pointInDirection angle).lines = some
      (Function.update (Function.update store anglePlace (some d)) directionPlace (some (exactDirection d))) := by
  have lines : (Action.pointInDirection angle).lines = [angleLine angle, pageLine] := rfl
  rw [tokens_operand, Option.bind_some] at computed
  rw [runLines_of_isRead (passage_action _).isRead, lines, List.map_cons, List.map_singleton, List.foldlM_cons,
    run_angleLine computed, Option.bind_eq_bind, Option.bind_some, List.foldlM_cons,
    run_pageLine (Function.update_self _ _ _)]
  rfl

namespace Compile

/-- Directions agree in their three forms, up to whole turns. The descriptor of a sprite has the direction of the
page for the direction that the project stores. The code that points a sprite stores the same function of the
value it is given. The code of the reporter gives, for a direction that was stored in either way, the direction it
was stored for up to whole turns; the result is in the range of the editor exactly for directions that one turn
brings there, and it is the direction itself exactly if that was in the range before. -/
theorem directions_agree (scope : Scope) (sub : BlockId → Outcome Operand) (stack : BlockId → Outcome (List Statement))
    {pointBlock reportBlock : Block} (points : pointBlock.opcode = .ofName "motion_pointindirection")
    (reports : reportBlock.opcode = .ofName "motion_direction") (d : ℚ) :
    (∀ target scripts, (descriptor target scripts).direction =
      if target.isStage then 0 else pageDirection (fun x => decide (0 < x)) target.direction) ∧
    (∀ angle, (input sub pointBlock "DIRECTION" .numeric).result = .ok angle →
      ∃ statement, (statementOf scope sub stack pointBlock).result = .ok statement ∧
        ∀ store, (tokens angle.code.text).bind (number? store) = some d →
          ∃ after, runLines store statement.bodyLines = some after ∧
            after directionPlace = some (pageDirection (fun x => decide (0 < x)) d)) ∧
    ∃ operand, (valueOf scope sub reportBlock).result = .ok operand ∧
      ∀ store : Store, store directionPlace = some (pageDirection (fun x => decide (0 < x)) d) →
        ∃ r, (tokens operand.code.text).bind (number? store) = some r ∧ (∃ k : ℤ, r = d + 360 * k) ∧
          (-180 < r ∧ r ≤ 180 ↔ -540 < d ∧ d ≤ 540) ∧ (r = d ↔ -180 < d ∧ d ≤ 180) := by
  have pointing : pointBlock.opcode = .command .pointInDirection := points
  have reporting : reportBlock.opcode = .reporter .direction := reports
  refine ⟨fun target scripts => ?_, fun angle given => ?_, .direction, ?_, fun store held => ?_⟩
  · unfold descriptor
    split <;> rfl
  · refine ⟨.action (.pointInDirection angle), ?_, fun store computed => ⟨_, run_pointing computed, ?_⟩⟩
    · simp only [statementOf, pointing, command]
      exact Outcome.bind_eq_ok.2 ⟨angle, given, rfl⟩
    · exact Function.update_self _ _ _
  · simp only [valueOf, reporting, reporter]
    rfl
  · exact ⟨_, number?_reported held, exists_turn d, editorDirection_mem_iff d, editorDirection_eq_iff d⟩

/-- A block that points a sprite to the left, by a direction outside the range of the editor. -/
def pointLeft : Block :=
  { linkedBlock "point" (.command .pointInDirection) [] none with
    inputs := [("DIRECTION", ⟨.literal .number "270", none⟩)] }

def askDirection : Block := linkedBlock "ask" (.reporter .direction) [] none

/-- A sprite that points to the left is asked for its direction. -/
theorem directions_agree_left :
    pointLeft.opcode = .ofName "motion_pointindirection" ∧ askDirection.opcode = .ofName "motion_direction" ∧
      ∃ statement operand after,
        (statementOf ⟨spriteOf [], [], none⟩ (fun _ => pure .null) (fun _ => pure []) pointLeft : Outcome _).result =
          .ok statement ∧
        (valueOf ⟨spriteOf [], [], none⟩ (fun _ => pure .null) askDirection : Outcome _).result = .ok operand ∧
        runLines (fun _ => none) statement.bodyLines = some after ∧
        (tokens operand.code.text).bind (number? after) = some (-90) := by
  have points : pointLeft.opcode = .ofName "motion_pointindirection" := rfl
  have reports : askDirection.opcode = .ofName "motion_direction" := rfl
  obtain ⟨-, pointing, operand, reported, reporting⟩ :=
    directions_agree ⟨spriteOf [], [], none⟩ (fun _ => pure .null) (fun _ => pure []) points reports 270
  obtain ⟨statement, compiled, run⟩ := pointing (.number 270) rfl
  have literal : (tokens (Operand.number 270).code.text).bind (number? fun _ => none) = some 270 := by
    have text : tokens (Operand.number 270).code.text = some [.number ['2', '7', '0']] := by decide +kernel
    have parsed : expression? [.number ['2', '7', '0']] = some (.number ⟨270, 0⟩) := rfl
    refine Option.bind_eq_some_iff.2 ⟨_, text, ?_⟩
    rw [number?, parsed, Option.bind_some, Expression.value_number]
    rfl
  obtain ⟨after, ran, held⟩ := run _ literal
  obtain ⟨r, computed, ⟨k, rfl⟩, range, -⟩ := reporting after held
  obtain ⟨low, high⟩ := range.2 (by norm_num)
  have least : -2 < k := by exact_mod_cast (by linarith : (-2 : ℚ) < k)
  have most : k < 0 := by exact_mod_cast (by linarith : (k : ℚ) < 0)
  obtain rfl : k = -1 := by omega
  exact ⟨points, reports, statement, operand, after, compiled, reported, ran, by rw [computed]; norm_num⟩

end Compile

end ScratchPage
