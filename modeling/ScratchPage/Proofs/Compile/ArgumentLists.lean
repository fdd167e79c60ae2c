import ScratchPage.Proofs.Compile.Arguments
import ScratchPage.Proofs.Json.Texts
import ScratchPage.Proofs.Lexical.Loops

/-!
# Argument lists

The identifiers and the names of the arguments of a procedure come in its mutation, each list as an array
or as the JSON text of one, and leave as arrays in the code of its definition. Both ways of giving a list
give the same texts, what is neither is an error that names the key, and the arrays in the code are read
as the lists that came in (`target_keeps_lists`).
-/

namespace ScratchPage
set_option autoImplicit false

/-! ## Lists in mutations -/

namespace Signature

/-- The items have these texts: strings as they are, numbers and booleans as they are written. -/
def HaveTexts (items : List Json) (texts : List String) : Prop :=
  List.Forall₂ (fun item text => item.plainText? = some text) items texts

/-- The list that the value of a key stands for. -/
inductive Gives : Option Json → List String → Prop
  | absent : Gives none []
  | null : Gives (some .null) []
  | array {items : List Json} {texts : List String} : HaveTexts items texts → Gives (some (.array items)) texts
  | encoded {source : String} {items : List Json} {texts : List String} :
      Json.ArrayText items source.toList → HaveTexts items texts → Gives (some (.string source)) texts

/-- An array of strings, numbers and booleans, or a string that holds the JSON text of one. -/
inductive IsList : Json → Prop
  | array {items : List Json} : (∀ item ∈ items, item.IsPlain) → IsList (.array items)
  | encoded {source : String} {items : List Json} : Json.ArrayText items source.toList → IsList (.string source)

/-- The key has a value, and it is neither null nor a list. -/
def Offends (value : Option Json) : Prop := ∃ given, value = some given ∧ given ≠ .null ∧ ¬ IsList given

/-- The texts of items are read one by one. -/
theorem mapM_eq_some_iff {items : List Json} {texts : List String} :
    items.mapM Json.plainText? = some texts ↔ HaveTexts items texts := by
  unfold HaveTexts
  induction items generalizing texts with
  | nil => simp [eq_comm]
  | cons item items ih =>
    simp only [List.mapM_cons, List.forall₂_cons_left_iff, Option.bind_eq_bind, Option.bind_eq_some_iff,
      Option.pure_def, Option.some.injEq, ih, eq_comm (b := texts)]
    exact ⟨fun ⟨b, first, bs, others, same⟩ => ⟨b, bs, first, others, same⟩,
      fun ⟨b, bs, first, others, same⟩ => ⟨b, first, bs, others, same⟩⟩

/-- Items have texts if and only if each of them is plain. -/
theorem exists_haveTexts_iff {items : List Json} :
    (∃ texts, HaveTexts items texts) ↔ ∀ item ∈ items, item.IsPlain := by
  unfold HaveTexts
  induction items with
  | nil => simp
  | cons item items ih =>
    rw [List.forall_mem_cons, ← ih, ← Json.exists_plainText?_iff]
    simp only [List.forall₂_cons_left_iff]
    constructor
    · rintro ⟨_, text, texts, first, others, -⟩
      exact ⟨⟨text, first⟩, texts, others⟩
    · rintro ⟨⟨text, first⟩, texts, others⟩
      exact ⟨text :: texts, text, texts, first, others, rfl⟩

/-- Strings have themselves as their texts. -/
theorem haveTexts_strings (texts : List String) : HaveTexts (texts.map .string) texts := by
  unfold HaveTexts
  induction texts with
  | nil => exact .nil
  | cons text texts ih => exact .cons rfl ih

/-- The reader of lists gives exactly the texts that the value of a key stands for, in each form that a list can
have. -/
theorem textList?_eq_some_iff {value : Option Json} {texts : List String} :
    textList? value = some texts ↔ Gives value texts := by
  constructor
  · intro found
    unfold textList? at found
    split at found
    · cases found
      exact .absent
    · cases found
      exact .null
    · exact .array (mapM_eq_some_iff.1 found)
    · next source =>
      split at found
      · next items read =>
        have haveTexts := mapM_eq_some_iff.1 found
        exact .encoded (Json.read?_array_iff.1 ⟨read, exists_haveTexts_iff.1 ⟨texts, haveTexts⟩⟩) haveTexts
      · cases found
    · cases found
  · intro gives
    cases gives with
    | absent => rfl
    | null => rfl
    | array haveTexts => exact mapM_eq_some_iff.2 haveTexts
    | encoded isText haveTexts =>
      simp only [textList?, (Json.read?_array_iff.2 isText).1]
      exact mapM_eq_some_iff.2 haveTexts

/-- A key that gives no list has a value that is no list: there is no third case. -/
theorem exists_gives_iff {value : Option Json} : (∃ texts, Gives value texts) ↔ ¬ Offends value := by
  constructor
  · rintro ⟨texts, gives⟩ ⟨given, rfl, some, other⟩
    cases gives with
    | null => exact some rfl
    | array haveTexts => exact other (.array (exists_haveTexts_iff.1 ⟨texts, haveTexts⟩))
    | encoded isText => exact other (.encoded isText)
  · intro fine
    cases value with
    | none => exact ⟨[], .absent⟩
    | some given =>
      by_cases null : given = .null
      · exact ⟨[], null ▸ .null⟩
      · have isList : IsList given := by
          by_contra other
          exact fine ⟨given, rfl, null, other⟩
        cases isList with
        | array plain =>
          obtain ⟨texts, haveTexts⟩ := exists_haveTexts_iff.2 plain
          exact ⟨texts, .array haveTexts⟩
        | encoded isText =>
          obtain ⟨texts, haveTexts⟩ := exists_haveTexts_iff.2 isText.isPlain
          exact ⟨texts, .encoded isText haveTexts⟩

theorem textList?_eq_none_iff {value : Option Json} : textList? value = none ↔ Offends value := by
  rw [← not_iff_not, ← exists_gives_iff, ← ne_eq, Option.ne_none_iff_exists']
  simp only [textList?_eq_some_iff]

section

variable {block : BlockId} {mutation : Json}

theorem argumentList_eq_ok_iff {key : String} {texts : List String} :
    argumentList block mutation key = .ok texts ↔ Gives (mutation.get? key) texts := by
  rw [← textList?_eq_some_iff, argumentList]
  cases textList? (mutation.get? key) <;> simp

theorem argumentList_eq_error_iff {key : String} {error : CompileError} :
    argumentList block mutation key = .error error ↔
      Offends (mutation.get? key) ∧ error = .malformedField block ("mutation." ++ key) .notStrings := by
  rw [← textList?_eq_none_iff, argumentList]
  cases textList? (mutation.get? key) <;> simp [eq_comm]

variable {code : String} (named : mutation.get? "proccode" = some (.string code))

include named

theorem ofMutation_eq : ofMutation block (some mutation) = do
    let ids ← argumentList block mutation "argumentids"
    let names ← argumentList block mutation "argumentnames"
    return some ⟨code, ids, names, warpOf (mutation.get? "warp")⟩ := by
  simp only [ofMutation, named, Option.bind_some, Json.asString?]

theorem ofMutation_eq_ok {ids names : List String} (first : Gives (mutation.get? "argumentids") ids)
    (second : Gives (mutation.get? "argumentnames") names) :
    ofMutation block (some mutation) = .ok (some ⟨code, ids, names, warpOf (mutation.get? "warp")⟩) := by
  rw [ofMutation_eq named, argumentList_eq_ok_iff.2 first, argumentList_eq_ok_iff.2 second]
  rfl

/-- The identifiers are read before the names, so a fault in both lists is one of the identifiers. -/
theorem ofMutation_eq_error_iff {error : CompileError} :
    ofMutation block (some mutation) = .error error ↔
      (Offends (mutation.get? "argumentids") ∧
        error = .malformedField block "mutation.argumentids" .notStrings) ∨
      (¬ Offends (mutation.get? "argumentids") ∧ Offends (mutation.get? "argumentnames") ∧
        error = .malformedField block "mutation.argumentnames" .notStrings) := by
  rw [ofMutation_eq named]
  by_cases first : Offends (mutation.get? "argumentids")
  · have failed : argumentList block mutation "argumentids" = .error _ := argumentList_eq_error_iff.2 ⟨first, rfl⟩
    rw [failed]
    change Except.error _ = _ ↔ _
    simp [first, eq_comm]
  · obtain ⟨ids, gives⟩ := exists_gives_iff.2 first
    rw [argumentList_eq_ok_iff.2 gives]
    by_cases second : Offends (mutation.get? "argumentnames")
    · have failed : argumentList block mutation "argumentnames" = .error _ :=
        argumentList_eq_error_iff.2 ⟨second, rfl⟩
      rw [failed]
      change Except.error _ = _ ↔ _
      simp [first, second, eq_comm]
    · obtain ⟨names, gives⟩ := exists_gives_iff.2 second
      rw [argumentList_eq_ok_iff.2 gives]
      change Except.ok _ = _ ↔ _
      simp [first, second]

end

end Signature

/-! ## Lists in code -/

namespace Json

theorem rereadItems_strings (texts : List String) (depth : Nat) :
    rereadItems (texts.map .string) depth = some (texts.map .string) := by
  induction texts with
  | nil => rfl
  | cons text texts ih => simp [rereadItems, reread, ih]

/-- An array of strings in the code is read as the same strings. -/
theorem read?_strings (texts : List String) :
    read? (literal (.array (texts.map .string))) = some (.array (texts.map .string)) := by
  have guarded : read? (literal (.array (texts.map .string))) = reread (.array (texts.map .string)) maxDepth :=
    harmless_guardChar.read? (written_guardChar _).symm
  have deep : maxDepth = 126 + 1 := rfl
  rw [guarded, deep, reread, rereadItems_strings, Option.map_some]

end Json

/-- Lines that follow each other in the code have these contents behind their indentation. -/
def HasLines (code : String) (contents : List (List Char)) : Prop :=
  ∃ lines, lines <:+: code.toList.splitOn '\n' ∧
    List.Forall₂ (fun line content => ∃ n, line = List.replicate n ' ' ++ content) lines contents

/-- The lines of a script follow each other in the code of its descriptor. -/
theorem hasLines_script {d : Descriptor} {script : Script} (mem : script ∈ d.scripts) :
    HasLines d.code (script.lines.map Line.content) := by
  obtain ⟨before, after, split⟩ := List.append_of_mem mem
  obtain ⟨written, cut, each⟩ := Lexical.splitOn_writeAll (Lexical.oneLine_descriptor d) 0
  have parts : d.headLines ++ d.scriptLines ++ d.tailLines =
      (d.headLines ++ before.flatMap Script.lines) ++
        (script.lines ++ (after.flatMap Script.lines ++ d.tailLines)) := by
    simp [Descriptor.scriptLines, split]
  rw [parts] at each
  refine ⟨_, ?_, List.forall₂_map_right_iff.2
    (List.forall₂_take_append _ _ _ (List.forall₂_drop_append _ _ _ each))⟩
  rw [Descriptor.code, cut]
  exact (((List.take_prefix _ _).isInfix).trans (List.drop_suffix _ _).isInfix).trans (List.prefix_append _ _).isInfix

/-- The code defines a procedure, and behind its method stand texts that are read as arrays of the identifiers
and of the names of its arguments. -/
def Descriptor.Lists (d : Descriptor) (signature : Signature) : Prop :=
  ∃ (body : List Statement) (ids names : String),
    Script.procedure signature body ∈ d.scripts ∧
    HasLines d.code
      ([("this.definedProcedures.set(" ++ Text.quoted signature.code ++ ", \x7b").toList,
        "method: (async function(argsMethodArgs, argsArgMapping) \x7b".toList] ++
      (Statement.chainLines body).map Line.content ++
      ["\x7d).bind(this),".toList, ("argumentids: " ++ ids ++ ",").toList,
        ("argumentnames: " ++ names ++ ",").toList, "\x7d);".toList]) ∧
    Json.read? ids = some (.array (signature.argumentIds.map .string)) ∧
    Json.read? names = some (.array (signature.argumentNames.map .string))

theorem Descriptor.lists_of_mem {d : Descriptor} {signature : Signature} {body : List Statement}
    (mem : Script.procedure signature body ∈ d.scripts) : d.Lists signature := by
  refine ⟨body, _, _, mem, ?_, Json.read?_strings _, Json.read?_strings _⟩
  have written := hasLines_script mem
  simp only [Script.lines, Script.textArray, Code.data, Code.quoted, List.map_append, List.map_cons, List.map_nil,
    Line.content, Lexical.Code.text_append, Lexical.Code.text_singleton, Fragment.text] at written
  exact written

/-! ## Targets -/

/-- A definition among the top-level blocks has a prototype of this name that was read with this mutation. -/
def Target.Prototypes (t : Target) (id : BlockId) (mutation : Json) : Prop :=
  ∃ definition ∈ t.graph.topLevel, definition.opcode = .hat .defineProcedure ∧
    (∃ input, definition.input? "custom_block" = some input ∧ input.blockId? = some id) ∧
    ∃ prototype json, t.graph.find? id = some prototype ∧ Block.ofJson id json = .ok prototype ∧
      json.get? "mutation" = some mutation

namespace Compile

open Signature

/-- The lists of a signature stand in the code of a target with its prototype. -/
theorem lists_of_prototypes {t : Target} {id : BlockId} {mutation : Json} (prototypes : t.Prototypes id mutation)
    {signature : Signature} (read : ofMutation id (some mutation) = .ok (some signature)) {d : Descriptor}
    (compiled : (target t).result = .ok d) : d.Lists signature := by
  obtain ⟨definition, top, isDefinition, ⟨input, slot, isBlock⟩, prototype, json, found, made, given⟩ := prototypes
  have carried : prototype.signature = some signature := by
    obtain ⟨-, own, -⟩ := Block.parts_of_ofJson made
    rw [given, read] at own
    exact (Except.ok.inj own).symm
  have defined := definedSignature_eq_ok.2 ⟨input, id, prototype, slot, isBlock, found, carried⟩
  obtain ⟨body, mem⟩ := exists_script_of_definition compiled top isDefinition defined
  exact Descriptor.lists_of_mem mem

/-- The lists of the arguments are kept. A list that is given as an array of its texts, or as any JSON text of
this array, is the list that is read. For a mutation with lists the signature has them, and the code of every
target with a procedure of this mutation defines the procedure with arrays that are read as the same lists. The
mutation is refused exactly where one of the keys has a value that is neither null nor a list, and the error names
the first such key. -/
theorem target_keeps_lists {mutation : Json} {code : String}
    (named : mutation.get? "proccode" = some (.string code)) (block : BlockId) :
    (∀ texts : List String, Gives (some (.array (texts.map .string))) texts ∧
      ∀ source : String, Json.ArrayText (texts.map .string) source.toList → Gives (some (.string source)) texts) ∧
    (∀ ids names : List String, Gives (mutation.get? "argumentids") ids →
      Gives (mutation.get? "argumentnames") names →
      ∃ signature : Signature, ofMutation block (some mutation) = .ok (some signature) ∧
        signature = ⟨code, ids, names, warpOf (mutation.get? "warp")⟩ ∧
        ∀ (t : Target) (d : Descriptor), t.Prototypes block mutation → (target t).result = .ok d →
          d.Lists signature) ∧
    ∀ error, ofMutation block (some mutation) = .error error ↔
      (Offends (mutation.get? "argumentids") ∧
        error = .malformedField block "mutation.argumentids" .notStrings) ∨
      (¬ Offends (mutation.get? "argumentids") ∧ Offends (mutation.get? "argumentnames") ∧
        error = .malformedField block "mutation.argumentnames" .notStrings) := by
  refine ⟨fun texts => ⟨.array (haveTexts_strings texts), fun source isText => ?_⟩, ?_, fun error => ?_⟩
  · exact .encoded isText (haveTexts_strings texts)
  · intro ids names first second
    have read : ofMutation block (some mutation) = .ok (some _) := ofMutation_eq_ok named first second
    exact ⟨_, read, rfl, fun t d prototypes compiled => lists_of_prototypes prototypes read compiled⟩
  · exact ofMutation_eq_error_iff named

/-- A JSON text of identifiers with a quote, a backslash, a line separator and the end of a script. -/
def hostileText : String := "[ \"\\u003C/script>\" ,\"b\\\\\\\"\u2028\"]"

/-- The signature with these identifiers. -/
def hostileSignature : Signature :=
  ⟨"say %s %s", ["</script>", "b\\\"\u2028"], ["a\\\"<", "\u2029</script>"], false⟩

/-- A mutation that has the identifiers as a text and the names as an array. -/
def hostileMutation : Json :=
  .object [("argumentids", .string hostileText),
    ("argumentnames", .array (hostileSignature.argumentNames.map .string)),
    ("proccode", .string hostileSignature.code)]

/-- A prototype with this mutation. -/
def hostilePrototype : Json :=
  .object [("mutation", hostileMutation), ("opcode", .string "procedures_prototype")]

/-- A target that defines the procedure. -/
def hostile : Target :=
  spriteOf
    [linkedBlock "hat" (.hat .defineProcedure) [("custom_block", "prototype")] none,
     { linkedBlock "prototype" .prototype [] none with
       signature := some hostileSignature, source := hostilePrototype }]

/-- A mutation with a fault in both lists. -/
def faultyMutation : Json :=
  .object [("argumentids", .array [.null]), ("argumentnames", .bool true), ("proccode", .string "say")]

/-- Lists with quotes, a line separator and the end of a script are kept, and the first of two faulty lists is
the error. -/
theorem target_keeps_lists_hostile :
    Json.ArrayText (hostileSignature.argumentIds.map .string) hostileText.toList ∧
      ofMutation ⟨"prototype"⟩ (some hostileMutation) = .ok (some hostileSignature) ∧
      (∃ d, hostile.Prototypes ⟨"prototype"⟩ hostileMutation ∧ (target hostile).result = .ok d ∧
        d.Lists hostileSignature) ∧
      ofMutation ⟨"prototype"⟩ (some faultyMutation) =
        .error (.malformedField ⟨"prototype"⟩ "mutation.argumentids" .notStrings) := by
  have named : hostileMutation.get? "proccode" = some (.string hostileSignature.code) := rfl
  have named' : faultyMutation.get? "proccode" = some (.string "say") := rfl
  have isText : Json.ArrayText (hostileSignature.argumentIds.map .string) hostileText.toList :=
    Json.read?_array_iff.1 ⟨rfl, by simp [Json.IsPlain.string]⟩
  obtain ⟨lists, reads, -⟩ := target_keeps_lists named ⟨"prototype"⟩
  obtain ⟨signature, read, rfl, kept⟩ := reads _ _ ((lists hostileSignature.argumentIds).2 _ isText)
    (lists hostileSignature.argumentNames).1
  have prototypes : hostile.Prototypes ⟨"prototype"⟩ hostileMutation :=
    ⟨_, List.mem_cons_self, rfl, ⟨_, rfl, rfl⟩, _, hostilePrototype, rfl, rfl, rfl⟩
  obtain ⟨d, compiled⟩ : ∃ d, (target hostile).result = .ok d := Outcome.exists_of_toBool (by decide +kernel)
  have offends : Offends (faultyMutation.get? "argumentids") := by
    refine ⟨_, rfl, nofun, fun isList => ?_⟩
    cases isList with
    | array plain => cases plain .null List.mem_cons_self
  exact ⟨isText, read, ⟨d, prototypes, compiled, kept hostile d prototypes compiled⟩,
    ((target_keeps_lists named' ⟨"prototype"⟩).2.2 _).2 (.inl ⟨offends, rfl⟩)⟩

end Compile

end ScratchPage
