import ScratchPage.Proofs.Lexical.Texture

/-!
# The table of procedures in code

At run time the procedures of a target stand in a table, under their codes. The table is named in two
kinds of lines only: a call looks a code up, and the script of a procedure puts a code in. So every
look-up that the tokens of a target show is the look-up of a code that one of its statements calls.
-/

namespace ScratchPage
set_option autoImplicit false

namespace Lexical

/-- The tokens after the name of the table when a method of it is called for a code. -/
def methodCall (method code : List Char) : List Token :=
  [.sign ['.'], .word method, .opening .round, .string code]

/-- The tokens with which a method of the table is called for a code. -/
def tableCall (method code : List Char) : List Token :=
  [.word ['t', 'h', 'i', 's'], .sign ['.']] ++ .word tableName :: methodCall method code

/-- The line that looks up a procedure calls the table. -/
theorem tokens_fetchLine (code : String) :
    (fetchLine code).tokens =
      [.word ['c', 'o', 'n', 's', 't'], .word ['p', 'r', 'o', 'c', 'I', 'n', 'f', 'o'], .sign ['='],
       .word ['t', 'h', 'i', 's'], .sign ['.']] ++
        .word tableName :: (methodCall ['g', 'e', 't'] (code.toList.flatMap Text.escapeChar) ++
          [.closing .round, .sign [';']]) := by
  simp only [fetchLine, Line.tokens, Code.quoted, Code.tokens_append, Code.tokens_singleton, tokens_quoted]
  repeat rw [Fragment.tokens_fixed]
  rfl

/-- So does the line that puts one into it. -/
theorem tokens_storeLine (code : String) :
    (storeLine code).tokens =
      [.word ['t', 'h', 'i', 's'], .sign ['.']] ++
        .word tableName :: (methodCall ['s', 'e', 't'] (code.toList.flatMap Text.escapeChar) ++
          [.sign [','], .opening .curly]) := by
  simp only [storeLine, Line.tokens, Code.quoted, Code.tokens_append, Code.tokens_singleton, tokens_quoted]
  repeat rw [Fragment.tokens_fixed]
  rfl

/-! ## Lines by their use of the table -/

/-- A line does not name the table, or it looks up one of the first codes or puts in one of the second. -/
inductive Uses (fetched stored : List String) : Line → Prop
  | none {line : Line} (absent : .word tableName ∉ line.tokens) : Uses fetched stored line
  | fetch {code : String} (mem : code ∈ fetched) : Uses fetched stored (fetchLine code)
  | store {code : String} (mem : code ∈ stored) : Uses fetched stored (storeLine code)

section

variable {fetched stored : List String}

/-- A line whose code does not name the table does not use it. -/
theorem weave_uses : Weave (Lacks tableName) (Uses fetched stored) :=
  { texture_lacks (by simp [markedWords]) with line := fun _ lacks => .none (not_mem_of_holds lacks) }

theorem lacksTable_chainTexts : ∀ text ∈ chainTexts, Lacks tableName [.fixed text] := by
  simp only [chainTexts, screenRefresh, List.forall_mem_cons]
  exact ⟨.fixed rfl, .fixed rfl, .fixed rfl, .fixed rfl, by simp⟩

theorem lacksTable_argument (name : String) : Lacks tableName (Operand.argument name).code :=
  .append (.append (.fixed rfl) (.of_value (valueText_quoted name) (by decide))) (.fixed rfl)

/-- The lines of a chain use the table for the codes that its statements call. -/
theorem uses_chain {body : List Statement} (calls : ∀ code ∈ Statement.chainCalls body, code ∈ fetched) :
    AllHold (Uses fetched stored) (Statement.chainLines body) :=
  weave_uses.chain lacksTable_chainTexts body (fun name _ => lacksTable_argument name)
    fun code called => .fetch (calls code called)

/-- The lines of a target use the table for the codes that its scripts call or define. -/
theorem uses_descriptor {d : Descriptor} (calls : ∀ script ∈ d.scripts, ∀ code ∈ script.calls, code ∈ fetched)
    (defines : ∀ script ∈ d.scripts, ∀ code ∈ script.defines, code ∈ stored) :
    AllHold (Uses fetched stored) (d.headLines ++ d.scriptLines ++ d.tailLines) := by
  refine weave_uses.descriptor d lacksTable_chainTexts (fun script _ => ?_)
    (fun _ _ name _ => lacksTable_argument name) (fun script mem code called => .fetch (calls script mem code called))
    fun script mem code own => .store (defines script mem code own)
  cases script <;> simp only [scriptTexts, List.mem_singleton, forall_eq] <;> exact .fixed rfl

end

/-! ## Uses of the table -/

section

variable {known : List String}

/-- A line that names the table names it once, before the code that it is used for. -/
theorem Uses.split {line : Line} (uses : Uses known known line) :
    .word tableName ∉ line.tokens ∨
      ∃ code ∈ known, ∃ before method after, .word tableName ∉ before ∧
        .word tableName ∉ methodCall method (code.toList.flatMap Text.escapeChar) ++ after ∧
        line.tokens = before ++
          .word tableName :: (methodCall method (code.toList.flatMap Text.escapeChar) ++ after) := by
  cases uses with
  | none absent => exact .inl absent
  | @fetch code mem =>
    refine .inr ⟨code, mem, _, _, _, ?_, ?_, tokens_fetchLine code⟩
    · decide
    · simp [methodCall, tableName]
  | @store code mem =>
    refine .inr ⟨code, mem, _, _, _, ?_, ?_, tokens_storeLine code⟩
    · decide
    · simp [methodCall, tableName]

/-- A method of the table is called for the codes of the lines that name it. -/
theorem exists_code_of_tableCall {lines : List Line} (use : AllHold (Uses known known) lines) {method content : List Char}
    (occurs : tableCall method content <:+: lines.flatMap Line.tokens) :
    ∃ code ∈ known, content = code.toList.flatMap Text.escapeChar := by
  have named : (.word tableName :: methodCall method content) <:+: lines.flatMap Line.tokens :=
    List.IsInfix.trans (List.suffix_append _ _).isInfix occurs
  obtain ⟨line, mem, found⟩ := exists_infix_of_flatMap (fun line mem before after tokens => by
    obtain absent | ⟨code, -, ahead, other, behind, fresh, last, split⟩ := (use line mem).split
    · simp [tokens] at absent
    · rw [split] at tokens
      obtain ⟨-, -, rfl⟩ := (List.append_cons_inj_of_notMem fresh last).1 tokens
      simp [methodCall]) named
  obtain absent | ⟨code, isKnown, ahead, other, behind, fresh, last, split⟩ := (use line mem).split
  · exact absurd (found.subset (by simp)) absent
  · rw [split] at found
    have leads := prefix_of_infix fresh last found
    simp only [methodCall, List.cons_append, List.cons_prefix_cons, Token.string.injEq] at leads
    exact ⟨code, isKnown, leads.2.2.2.1⟩

end

/-- The codes of the procedures that the scripts of a target define. -/
def definedCodes (d : Descriptor) : List String := d.scripts.flatMap Script.defines

/-- The code of each defined procedure is put into the table. -/
theorem storeLine_mem {d : Descriptor} {code : String} (defined : code ∈ definedCodes d) :
    storeLine code ∈ d.scriptLines := by
  obtain ⟨script, mem, defines⟩ := List.mem_flatMap.1 defined
  refine List.mem_flatMap.2 ⟨script, mem, ?_⟩
  cases script with
  | procedure signature body =>
    obtain rfl := List.mem_singleton.1 defines
    simp [Script.lines, storeLine]
  | whenFlagClicked | whenReceived | whenCloned => cases defines

/-- Where statements call no other procedures than those that the scripts define, every code for which
the table is used is put into it. -/
theorem tableCall_of_linked {d : Descriptor}
    (linked : ∀ script ∈ d.scripts, ∀ code ∈ script.calls, code ∈ definedCodes d) :
    ∃ all own, tokens d.code = some all ∧ tokens d.scriptCode = some own ∧
      ∀ method content, tableCall method content <:+: all → tableCall ['s', 'e', 't'] content <:+: own := by
  have readAll := tokens_writeAll (passage_descriptor d [] true) 0
  have readOwn := tokens_writeAll (passage_scripts d.scripts [] true) Descriptor.scriptLevel
  refine ⟨_, _, readAll, readOwn, fun method content occurs => ?_⟩
  have defines : ∀ script ∈ d.scripts, ∀ code ∈ script.defines, code ∈ definedCodes d :=
    fun script isScript code own => List.mem_flatMap.2 ⟨script, isScript, own⟩
  obtain ⟨code, defined, rfl⟩ := exists_code_of_tableCall (uses_descriptor linked defines) occurs
  have stored : tableCall ['s', 'e', 't'] (code.toList.flatMap Text.escapeChar) <:+: (storeLine code).tokens := by
    rw [tokens_storeLine]
    exact ⟨[], [.sign [','], .opening .curly], rfl⟩
  have inScripts : (storeLine code).tokens ∈ d.scriptLines.map Line.tokens :=
    List.mem_map_of_mem (storeLine_mem defined)
  rw [List.flatMap_def]
  exact stored.trans (List.infix_of_mem_flatten inScripts)

end Lexical

end ScratchPage
