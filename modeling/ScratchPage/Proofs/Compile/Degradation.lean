import ScratchPage.Proofs.Compile.Marks
import ScratchPage.Proofs.Lexical.Gaps

/-!
# Nothing is left out in silence

Where a block has no code, its place shows in the code of its target as a comment or as a block with
nothing in it, and a warning says so. The warnings are at least as many as these places, so code without
warnings has none of them.
-/

namespace ScratchPage.Compile
set_option autoImplicit false

open Lexical

/-- The comments and the empty blocks in the code of a target are no more than the warnings raised for it. -/
theorem target_gaps_warned (t : Target) :
    (target t).Yields fun d => ∃ ts, tokens d.code = some ts ∧
      ts.count .comment + emptyBlocks (rowsOf d.code) ≤ (target t).raised.count .warning ∧
      ((target t).raised.count .warning = 0 → .comment ∉ ts ∧
        ∀ before first second after, rowsOf d.code = before ++ first :: second :: after →
          first.opensBlock = true → second.closesBlock = false) := by
  intro d compiled
  obtain ⟨ts, read, total⟩ := gaps_descriptor d
  have warned := gaps_le_warnings t d compiled
  refine ⟨ts, read, by omega, fun silent => ?_⟩
  have comments : ts.count .comment = 0 := by omega
  have blocks : emptyBlocks (rowsOf d.code) = 0 := by omega
  refine ⟨List.count_eq_zero.1 comments, ?_⟩
  intro before first second after split opens
  by_contra closes
  have counted : 0 < emptyBlocks (rowsOf d.code) := by
    rw [split]
    exact emptyBlocks_pos opens (by simpa using closes)
  omega

/-- A turn towards nothing that has code, a block that is not known, and a wait for as long as another such
block says. -/
def degraded : Target :=
  spriteOf
    [linkedBlock "hat" (.hat .whenFlagClicked) [] (some "turn"),
     linkedBlock "turn" (.command .pointTowards) [("TOWARDS", "menu")] (some "odd"),
     { linkedBlock "menu" (.menu .pointTowards) [] none with
       fields := [((Menu.pointTowards).field, ⟨"Sprite2", none⟩)] },
     linkedBlock "odd" (.unknown "pen_clear") [] (some "wait"),
     linkedBlock "wait" (.command .wait) [("DURATION", "value")] none,
     linkedBlock "value" (.unknown "music_getTempo") [] none]

/-- Three warnings for three gaps, and loops without any. -/
theorem target_gaps_warned_degraded :
    (∃ d ts, (target degraded).result = .ok d ∧ tokens d.code = some ts ∧
      ts.count .comment + emptyBlocks (rowsOf d.code) ≤ 3) ∧
    ∃ d ts, (target nestedLoops).result = .ok d ∧ tokens d.code = some ts ∧ .comment ∉ ts := by
  constructor
  · obtain ⟨d, compiled⟩ : ∃ d, (target degraded).result = .ok d := Outcome.exists_of_toBool (by decide +kernel)
    have warnings : (target degraded).raised.count .warning = 3 := by decide +kernel
    obtain ⟨ts, read, bound, -⟩ := target_gaps_warned degraded d compiled
    exact ⟨d, ts, compiled, read, warnings ▸ bound⟩
  · obtain ⟨d, compiled⟩ : ∃ d, (target nestedLoops).result = .ok d :=
      Outcome.exists_of_toBool (by decide +kernel)
    obtain ⟨ts, read, -, silent⟩ := target_gaps_warned nestedLoops d compiled
    exact ⟨d, ts, compiled, read, (silent (by decide +kernel)).1⟩

end ScratchPage.Compile
