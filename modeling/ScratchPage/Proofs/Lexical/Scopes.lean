import ScratchPage.Proofs.Lexical.Token

/-!
# Scopes of names

A reader that follows some names of JavaScript code through its scopes. A brace at the beginning of a
statement opens a block; the braces behind the head of a conditional, a loop or a function hold
statements too; all other braces are literals. `const` and `let` declare a name between the brackets
they stand in, and the name can be used once the semicolon has been reached. A name that is declared in
the head of a loop belongs to the braces behind it. Names in round brackets before an arrow are
parameters of the arrow, up to the end of its expression; whether they are is known behind the brackets
only, so names in round brackets are held until then. A name behind a dot is a property.

For each block the reader reports the names that the block has declared and those it has used, in order.
It refuses a name that the same block has declared before, a use of a name that is not declared between
the beginning of the innermost block and the use, and inside blocks every other way to bind names. So in
code that is read to its end every use of a name refers to the one declaration that its own block has
made (`blocksOf_bound`).
-/

namespace ScratchPage.Lexical
set_option autoImplicit false

/-! ## Words -/

/-- The names that statements declare for their own use. These are followed. -/
inductive Helper where
  | steps
  | direction
  | times
  | turn
  | listRef
  | index
  | sprite
  | procInfo
  | methodArgs
  | effect
  | resolve
deriving DecidableEq, Repr

namespace Helper

/-- The word that stands for the name. -/
def word : Helper → List Char
  | .steps => ['s', 't', 'e', 'p', 's']
  | .direction => ['d', 'i', 'r', 'e', 'c', 't', 'i', 'o', 'n']
  | .times => ['_', 't', 'i', 'm', 'e', 's']
  | .turn => ['_', 'i']
  | .listRef => ['l', 'i', 's', 't', 'R', 'e', 'f']
  | .index => ['i', 'n', 'd', 'e', 'x']
  | .sprite => ['s', 'p', 'r', 'i', 't', 'e']
  | .procInfo => ['p', 'r', 'o', 'c', 'I', 'n', 'f', 'o']
  | .methodArgs => ['m', 'e', 't', 'h', 'o', 'd', 'A', 'r', 'g', 's']
  | .effect => ['e', 'f', 'f', 'e', 'c', 't']
  | .resolve => ['r', 'e', 's', 'o', 'l', 'v', 'e']

def all : List Helper :=
  [.steps, .direction, .times, .turn, .listRef, .index, .sprite, .procInfo, .methodArgs, .effect, .resolve]

def ofWord? (word : List Char) : Option Helper := all.find? fun name => name.word == word

end Helper

/-- What a token means for the scopes. -/
inductive Cue where
  | comment
  | dot
  | comma
  | semicolon
  | arrow
  /-- A word before a declared name. -/
  | binder
  /-- A word before round brackets and a body. -/
  | head
  /-- A word before a body. -/
  | body
  | function
  /-- A word that binds names in a way that is not followed. -/
  | foreign
  | helper (name : Helper)
  /-- Any other word. -/
  | word
  | opening (bracket : Bracket)
  | closing (bracket : Bracket)
  | plain
deriving DecidableEq, Repr

/-- The words with a meaning of their own. -/
def reservedWords : List (List Char × Cue) :=
  [(['c', 'o', 'n', 's', 't'], .binder), (['l', 'e', 't'], .binder), (['i', 'f'], .head),
   (['w', 'h', 'i', 'l', 'e'], .head), (['f', 'o', 'r'], .head), (['s', 'w', 'i', 't', 'c', 'h'], .head),
   (['e', 'l', 's', 'e'], .body), (['d', 'o'], .body), (['t', 'r', 'y'], .body),
   (['f', 'i', 'n', 'a', 'l', 'l', 'y'], .body), (['f', 'u', 'n', 'c', 't', 'i', 'o', 'n'], .function),
   (['v', 'a', 'r'], .foreign), (['c', 'l', 'a', 's', 's'], .foreign), (['c', 'a', 't', 'c', 'h'], .foreign),
   (['i', 'm', 'p', 'o', 'r', 't'], .foreign), (['w', 'i', 't', 'h'], .foreign), (['e', 'v', 'a', 'l'], .foreign)]

def wordCue (word : List Char) : Cue :=
  match Helper.ofWord? word with
  | some name => .helper name
  | none => (reservedWords.lookup word).getD .word

def signCue (sign : List Char) : Cue :=
  if sign = ['.'] ∨ sign = ['?', '.'] then .dot
  else if sign = [','] then .comma
  else if sign = [';'] then .semicolon
  else if sign = ['=', '>'] then .arrow
  else .plain

/-- The meaning of a token, right behind a dot or not. -/
def cue (dot : Bool) : Token → Cue
  | .word word => bif dot then .word else wordCue word
  | .sign sign => signCue sign
  | .comment => .comment
  | .opening bracket => .opening bracket
  | .closing bracket => .closing bracket
  | .number _ => .plain
  | .string _ => .plain

/-! ## Scopes -/

/-- What brackets are there for. -/
inductive Purpose where
  /-- A statement in braces of its own. -/
  | block
  /-- The statements of a conditional, a loop or a function. -/
  | body
  | literal
  /-- The head of a conditional, a loop or a function. -/
  | head
  | group
  | index
deriving DecidableEq, Repr

def Purpose.bracket : Purpose → Bracket
  | .block => .curly
  | .body => .curly
  | .literal => .curly
  | .head => .round
  | .group => .round
  | .index => .square

/-- The names that a block declares and those that it uses. -/
structure Bindings where
  declared : List Helper
  used : List Helper
deriving DecidableEq, Repr

/-- Between brackets that are open. -/
structure Enclosure where
  purpose : Purpose
  /-- In a declaration, before its semicolon. -/
  declaring : Bool
  /-- The names that are declared here and can be used. -/
  names : List Helper
  /-- The parameters of the arrow whose expression is being read. -/
  params : List Helper
  /-- The names whose declaration has not ended. -/
  fresh : List Helper
  /-- The names in round brackets so far. -/
  held : List Helper
  /-- What the block has declared and used so far. -/
  own : Bindings
deriving DecidableEq, Repr

/-- The beginning of what stands between brackets. -/
def Enclosure.start (purpose : Purpose) (names : List Helper) : Enclosure :=
  ⟨purpose, false, names, [], [], [], ⟨[], []⟩⟩

/-- The name is declared between the beginning of the innermost block and here, and can be used. -/
def isVisible (name : Helper) : List Enclosure → Bool
  | [] => false
  | scope :: outer =>
    scope.names.contains name || scope.params.contains name ||
      (scope.purpose != .block && isVisible name outer)

/-- Changes what the innermost block has declared and used. -/
def changeBlock (change : Bindings → Option Bindings) : List Enclosure → Option (List Enclosure)
  | [] => none
  | scope :: outer =>
    if scope.purpose = .block then (change scope.own).map fun own => { scope with own := own } :: outer
    else (changeBlock change outer).map (scope :: ·)

/-- Declares a name, which the innermost block has not declared before. -/
def declare (name : Helper) (scopes : List Enclosure) : Option (List Enclosure) :=
  changeBlock (fun own =>
    if own.declared.contains name then none else some { own with declared := own.declared ++ [name] }) scopes

/-- Uses a name that is visible. -/
def refer (name : Helper) (scopes : List Enclosure) : Option (List Enclosure) :=
  if isVisible name scopes then
    changeBlock (fun own => some { own with used := own.used ++ [name] }) scopes
  else none

def declareAll : List Helper → List Enclosure → Option (List Enclosure)
  | [], scopes => some scopes
  | name :: names, scopes => (declare name scopes).bind (declareAll names)

def referAll : List Helper → List Enclosure → Option (List Enclosure)
  | [], scopes => some scopes
  | name :: names, scopes => (refer name scopes).bind (referAll names)

/-- Changes the innermost scope. -/
def changeTop (change : Enclosure → Enclosure) : List Enclosure → List Enclosure
  | [] => []
  | scope :: outer => change scope :: outer

/-- Begins a declaration of these names, in which they cannot be used. -/
def beginDeclaration (names : List Helper) (scope : Enclosure) : Enclosure :=
  { scope with declaring := true, fresh := scope.fresh ++ names }

def endStatement (scope : Enclosure) : Enclosure :=
  { scope with declaring := false, names := scope.names ++ scope.fresh, fresh := [], params := [] }

def setParams (names : List Helper) (scope : Enclosure) : Enclosure := { scope with params := names }

/-! ## The reader -/

/-- What the reader has just seen. -/
inductive Before where
  /-- A statement can begin here. -/
  | begins
  /-- A word before a declared name. -/
  | binder
  /-- A word before round brackets and a body. -/
  | headWord
  /-- A head or a word before a body, with the names that belong to the body. -/
  | head (names : List Helper)
  /-- Round brackets with names in them. -/
  | group (held : List Helper)
  /-- A name that is used. -/
  | mention
  | other
deriving DecidableEq, Repr

structure Reader where
  /-- The innermost scope first. -/
  scopes : List Enclosure
  before : Before
  /-- A dot has just been seen. -/
  dot : Bool
  /-- The blocks that have been closed. -/
  blocks : List Bindings
deriving DecidableEq, Repr

namespace Reader

def start : Reader := ⟨[], .begins, false, []⟩

def go (s : Reader) (before : Before) : Reader := { s with before := before, dot := false }

/-- Names in round brackets that no arrow follows are uses; a name must follow its word, and the body its
head. -/
def settle (s : Reader) : Option Reader :=
  match s.before with
  | .binder => none
  | .head (_ :: _) => none
  | .group held => (referAll held s.scopes).map fun scopes => { s with scopes := scopes, before := .other }
  | _ => some s

def inBlock (s : Reader) : Bool := s.scopes.any fun scope => scope.purpose == .block

def enter (s : Reader) (purpose : Purpose) (names : List Helper) (before : Before) : Reader :=
  { s with scopes := .start purpose names :: s.scopes }.go before

/-- Meets a name that is followed. -/
def meet (s : Reader) (name : Helper) : Option Reader :=
  match s.scopes with
  | [] => none
  | scope :: outer =>
    if scope.purpose.bracket = .round then
      some ({ s with scopes := { scope with held := scope.held ++ [name] } :: outer }.go .mention)
    else (refer name s.scopes).map fun scopes => { s with scopes := scopes }.go .mention

def leave (s : Reader) (bracket : Bracket) : Option Reader :=
  match s.scopes with
  | [] => none
  | scope :: outer =>
    if scope.purpose.bracket = bracket then
      match scope.purpose with
      | .block => some ({ s with scopes := outer, blocks := s.blocks ++ [scope.own] }.go .begins)
      | .body => some ({ s with scopes := outer }.go .begins)
      | .literal => some ({ s with scopes := outer }.go .other)
      | .index => some ({ s with scopes := outer }.go .other)
      | .group =>
        some ({ s with scopes := outer }.go (if scope.held.isEmpty then .other else .group scope.held))
      | .head =>
        (referAll scope.held outer).map fun outer =>
          { s with scopes := outer }.go (.head (scope.names ++ scope.fresh))
    else none

def step (s : Reader) : Cue → Option Reader
  | .comment => some s
  | .plain => s.settle.map (·.go .other)
  | .dot => s.settle.map fun s => { s.go .other with dot := true }
  | .comma =>
    s.settle.bind fun s =>
      if s.scopes.head?.any Enclosure.declaring then none
      else some ({ s with scopes := changeTop (setParams []) s.scopes }.go .other)
  | .semicolon =>
    s.settle.bind fun s =>
      if s.scopes.head?.any fun scope => scope.purpose == .literal then none
      else some ({ s with scopes := changeTop endStatement s.scopes }.go .begins)
  | .arrow =>
    match s.before with
    | .group held =>
      (declareAll held s.scopes).map fun scopes =>
        { s with scopes := changeTop (setParams held) scopes }.go (.head [])
    | .other => some (s.go (.head []))
    | _ => none
  | .binder => s.settle.map (·.go .binder)
  | .head => s.settle.map (·.go .headWord)
  | .body => s.settle.map (·.go (.head []))
  | .function => s.settle.bind fun s => if s.inBlock then none else some (s.go .headWord)
  | .foreign => s.settle.bind fun s => if s.inBlock then none else some (s.go .other)
  | .helper name =>
    match s.before with
    | .binder =>
      (declare name s.scopes).map fun scopes =>
        { s with scopes := changeTop (beginDeclaration [name]) scopes }.go .other
    | _ => s.settle.bind fun s => s.meet name
  | .word =>
    match s.before with
    | .binder =>
      some ({ s with scopes := changeTop (beginDeclaration []) s.scopes }.go .other)
    | _ => s.settle.map (·.go .other)
  | .opening .curly =>
    match s.before with
    | .head names => some (s.enter .body names .begins)
    | .begins => some (s.enter .block [] .begins)
    | _ => s.settle.map fun s => s.enter .literal [] .other
  | .opening .round =>
    match s.before with
    | .headWord => some (s.enter .head [] .other)
    | _ => s.settle.map fun s => s.enter .group [] .other
  | .opening .square => s.settle.map fun s => s.enter .index [] .other
  | .closing bracket => s.settle.bind fun s => s.leave bracket

def see (s : Reader) (t : Token) : Option Reader := s.step (cue s.dot t)

end Reader

/-- What each block of the code declares and uses, in the order in which the blocks end. -/
def blocksOf (ts : List Token) : Option (List Bindings) :=
  ((feed Reader.see .start ts).bind Reader.settle).bind fun s => if s.scopes.isEmpty then some s.blocks else none

/-- The followed names that stand as variables among tokens, right behind a dot or not. -/
def variablesOf (dot : Bool) : List Token → List Helper
  | [] => []
  | t :: ts =>
    match cue dot t with
    | .comment => variablesOf dot ts
    | .dot => variablesOf true ts
    | .helper name => name :: variablesOf false ts
    | _ => variablesOf false ts

/-! ## Names are bound -/

/-- Each name is declared once, and each name that is used is declared. -/
def Bindings.Bound (own : Bindings) : Prop :=
  own.declared.Nodup ∧ ∀ name ∈ own.used, name ∈ own.declared

theorem bound_start (purpose : Purpose) (names : List Helper) : (Enclosure.start purpose names).own.Bound := by
  simp [Enclosure.start, Bindings.Bound]

/-- The names that the innermost block has declared so far. -/
def declaredIn : List Enclosure → List Helper
  | [] => []
  | scope :: outer => if scope.purpose = .block then scope.own.declared else declaredIn outer

theorem declaredIn_block {scope : Enclosure} (isBlock : scope.purpose = .block) (outer : List Enclosure) :
    declaredIn (scope :: outer) = scope.own.declared := if_pos isBlock

theorem declaredIn_inner {scope : Enclosure} (inner : scope.purpose ≠ .block) (outer : List Enclosure) :
    declaredIn (scope :: outer) = declaredIn outer := if_neg inner

/-- The names that the scope knows of. -/
def Enclosure.known (scope : Enclosure) : List Helper := scope.names ++ scope.params ++ scope.fresh

/-- What the scopes know of is declared in the block around them. -/
def Grounded : List Enclosure → Prop
  | [] => True
  | scope :: outer => scope.known ⊆ declaredIn (scope :: outer) ∧ scope.own.Bound ∧ Grounded outer

/-- A visible name is declared in the block. -/
theorem mem_declaredIn {name : Helper} {scopes : List Enclosure} (grounded : Grounded scopes)
    (visible : isVisible name scopes = true) : name ∈ declaredIn scopes := by
  induction scopes with
  | nil => cases visible
  | cons scope outer ih =>
    obtain ⟨known, -, groundedOuter⟩ := grounded
    simp only [isVisible, Bool.or_eq_true, Bool.and_eq_true, List.contains_iff_mem, bne_iff_ne] at visible
    obtain (named | parameter) | ⟨inner, further⟩ := visible
    · exact known (by simp [Enclosure.known, named])
    · exact known (by simp [Enclosure.known, parameter])
    · rw [declaredIn_inner inner]
      exact ih groundedOuter further

/-- A change of a block that adds declarations keeps what the scopes know of. -/
theorem grounded_changeBlock {change : Bindings → Option Bindings} {added : List Helper}
    {scopes next : List Enclosure} (grounded : Grounded scopes) (changed : changeBlock change scopes = some next)
    (keeps : ∀ own later, own.declared = declaredIn scopes → own.Bound → change own = some later →
      later.Bound ∧ later.declared = own.declared ++ added) :
    Grounded next ∧ declaredIn next = declaredIn scopes ++ added := by
  induction scopes generalizing next with
  | nil => cases changed
  | cons scope outer ih =>
    obtain ⟨known, bound, groundedOuter⟩ := grounded
    rw [changeBlock] at changed
    split at changed
    · rename_i isBlock
      obtain ⟨later, here, rfl⟩ := Option.map_eq_some_iff.1 changed
      rw [declaredIn_block isBlock outer] at known keeps ⊢
      obtain ⟨boundLater, grown⟩ := keeps scope.own later rfl bound here
      have all : declaredIn ({ scope with own := later } :: outer) = scope.own.declared ++ added := by
        rw [declaredIn_block (by exact isBlock), grown]
      refine ⟨⟨?_, boundLater, groundedOuter⟩, all⟩
      rw [all]
      exact List.subset_append_of_subset_left added known
    · rename_i inner
      obtain ⟨later, there, rfl⟩ := Option.map_eq_some_iff.1 changed
      rw [declaredIn_inner inner outer] at known keeps ⊢
      obtain ⟨groundedLater, grown⟩ := ih groundedOuter there keeps
      have all : declaredIn (scope :: later) = declaredIn outer ++ added := by
        rw [declaredIn_inner inner, grown]
      refine ⟨⟨?_, bound, groundedLater⟩, all⟩
      rw [all]
      exact List.subset_append_of_subset_left added known

/-- A declaration keeps what the scopes know of declared, and adds its name. -/
theorem grounded_declare {name : Helper} {scopes next : List Enclosure} (grounded : Grounded scopes)
    (declared : declare name scopes = some next) :
    Grounded next ∧ declaredIn next = declaredIn scopes ++ [name] := by
  apply grounded_changeBlock grounded declared
  rintro own later - ⟨nodup, used⟩ changed
  obtain ⟨new, rfl⟩ := Option.ite_none_left_eq_some.1 changed |>.imp_right Option.some.inj
  rw [List.contains_iff_mem] at new
  refine ⟨⟨?_, ?_⟩, rfl⟩
  · exact nodup.append (List.nodup_singleton name) (by simpa using new)
  · intro other mem
    exact List.mem_append_left _ (used other mem)

/-- A use keeps what the scopes know of declared, and adds nothing. -/
theorem grounded_refer {name : Helper} {scopes next : List Enclosure} (grounded : Grounded scopes)
    (referred : refer name scopes = some next) : Grounded next ∧ declaredIn next = declaredIn scopes := by
  obtain ⟨visible, changed⟩ := Option.ite_none_right_eq_some.1 referred
  have mem := mem_declaredIn grounded visible
  rw [← List.append_nil (declaredIn scopes)]
  apply grounded_changeBlock grounded changed
  rintro own later here ⟨nodup, used⟩ ⟨⟩
  refine ⟨⟨nodup, ?_⟩, (List.append_nil _).symm⟩
  rintro other isUsed
  obtain before | now := List.mem_append.1 isUsed
  · exact used other before
  · rw [List.mem_singleton.1 now, here]
    exact mem

/-- The same for declarations in order. -/
theorem grounded_declareAll {names : List Helper} {scopes next : List Enclosure} (grounded : Grounded scopes)
    (declared : declareAll names scopes = some next) :
    Grounded next ∧ declaredIn next = declaredIn scopes ++ names := by
  induction names generalizing scopes with
  | nil =>
    cases declared
    exact ⟨grounded, (List.append_nil _).symm⟩
  | cons name names ih =>
    obtain ⟨middle, first, rest⟩ := Option.bind_eq_some_iff.1 declared
    obtain ⟨groundedMiddle, one⟩ := grounded_declare grounded first
    obtain ⟨groundedNext, all⟩ := ih groundedMiddle rest
    exact ⟨groundedNext, by simp [all, one]⟩

/-- The same for uses in order. -/
theorem grounded_referAll {names : List Helper} {scopes next : List Enclosure} (grounded : Grounded scopes)
    (referred : referAll names scopes = some next) : Grounded next ∧ declaredIn next = declaredIn scopes := by
  induction names generalizing scopes with
  | nil =>
    cases referred
    exact ⟨grounded, rfl⟩
  | cons name names ih =>
    obtain ⟨middle, first, rest⟩ := Option.bind_eq_some_iff.1 referred
    obtain ⟨groundedMiddle, one⟩ := grounded_refer grounded first
    obtain ⟨groundedNext, all⟩ := ih groundedMiddle rest
    exact ⟨groundedNext, all.trans one⟩

/-- A change of the innermost scope may make it know of names that are declared. -/
theorem grounded_changeTop {change : Enclosure → Enclosure} {scopes : List Enclosure} (grounded : Grounded scopes)
    (purpose : ∀ scope, (change scope).purpose = scope.purpose) (own : ∀ scope, (change scope).own = scope.own)
    (known : ∀ scope, scope.known ⊆ declaredIn scopes → (change scope).known ⊆ declaredIn scopes) :
    Grounded (changeTop change scopes) := by
  cases scopes with
  | nil => exact trivial
  | cons scope outer =>
    obtain ⟨knownHere, bound, groundedOuter⟩ := grounded
    have same : declaredIn (change scope :: outer) = declaredIn (scope :: outer) := by
      simp only [declaredIn, purpose, own]
    refine ⟨?_, ?_, groundedOuter⟩
    · rw [same]
      exact known scope knownHere
    · rwa [own]

theorem grounded_setParams {names : List Helper} {scopes : List Enclosure} (grounded : Grounded scopes)
    (declared : names ⊆ declaredIn scopes) : Grounded (changeTop (setParams names) scopes) := by
  refine grounded_changeTop grounded (fun _ => rfl) (fun _ => rfl) fun scope known => ?_
  simp only [Enclosure.known, setParams, List.append_subset] at known ⊢
  exact ⟨⟨known.1.1, declared⟩, known.2⟩

theorem grounded_beginDeclaration {names : List Helper} {scopes : List Enclosure} (grounded : Grounded scopes)
    (declared : names ⊆ declaredIn scopes) : Grounded (changeTop (beginDeclaration names) scopes) := by
  refine grounded_changeTop grounded (fun _ => rfl) (fun _ => rfl) fun scope known => ?_
  simp only [Enclosure.known, beginDeclaration, List.append_subset] at known ⊢
  exact ⟨known.1, known.2, declared⟩

theorem grounded_endStatement {scopes : List Enclosure} (grounded : Grounded scopes) :
    Grounded (changeTop endStatement scopes) := by
  refine grounded_changeTop grounded (fun _ => rfl) (fun _ => rfl) fun scope known => ?_
  simp only [Enclosure.known, endStatement, List.append_subset] at known ⊢
  exact ⟨⟨⟨known.1.1, known.2⟩, List.nil_subset _⟩, List.nil_subset _⟩

/-- The reader keeps what it knows of declared, and the blocks behind it are bound. -/
structure Reader.Bound (s : Reader) : Prop where
  scopes : Grounded s.scopes
  head : ∀ names, s.before = .head names → names ⊆ declaredIn s.scopes
  blocks : ∀ own ∈ s.blocks, own.Bound

namespace Reader

/-- No names wait for a body. -/
theorem Bound.of {s : Reader} (grounded : Grounded s.scopes) (bound : ∀ own ∈ s.blocks, own.Bound)
    (plain : ∀ names, s.before = .head names → names = []) : s.Bound where
  scopes := grounded
  head names isHead := by simp [plain names isHead]
  blocks := bound

/-- The step for names in round brackets that turn out to be uses. -/
theorem Bound.settle {s next : Reader} (bound : s.Bound) (settled : s.settle = some next) : next.Bound := by
  obtain ⟨scopes, before, dot, blocks⟩ := s
  cases before with
  | binder => cases settled
  | head names =>
    cases names with
    | nil =>
      cases settled
      exact bound
    | cons => cases settled
  | group held =>
    obtain ⟨later, referred, rfl⟩ := Option.map_eq_some_iff.1 settled
    exact .of (grounded_referAll bound.scopes referred).1 bound.blocks (by simp)
  | begins | headWord | mention | other =>
    cases settled
    exact bound

theorem Bound.enter {s : Reader} (bound : s.Bound) (purpose : Purpose) {before : Before}
    (plain : ∀ names, before = .head names → names = []) : (s.enter purpose [] before).Bound :=
  .of ⟨List.nil_subset _, bound_start purpose [], bound.scopes⟩ bound.blocks plain

/-- The step for a name: a declaration where one is due, or else a use. -/
theorem Bound.meet {s next : Reader} (bound : s.Bound) {name : Helper} (met : s.meet name = some next) :
    next.Bound := by
  obtain ⟨scopes, before, dot, blocks⟩ := s
  cases scopes with
  | nil => cases met
  | cons scope outer =>
    simp only [Reader.meet] at met
    split at met
    · cases met
      exact .of bound.scopes bound.blocks (by simp [go])
    · obtain ⟨later, referred, rfl⟩ := Option.map_eq_some_iff.1 met
      exact .of (grounded_refer bound.scopes referred).1 bound.blocks (by simp [go])

/-- The step for closing brackets: at the end of a block, what it has declared and used is bound. -/
theorem Bound.leave {s next : Reader} (bound : s.Bound) {bracket : Bracket} (left : s.leave bracket = some next) :
    next.Bound := by
  obtain ⟨scopes, before, dot, blocks⟩ := s
  cases scopes with
  | nil => cases left
  | cons scope outer =>
    obtain ⟨known, boundHere, groundedOuter⟩ := bound.scopes
    obtain ⟨-, left⟩ := Option.ite_none_right_eq_some.1 left
    cases purpose : scope.purpose with
    | block =>
      obtain rfl : _ = next := by simpa [purpose] using left
      refine .of groundedOuter ?_ (by simp [go])
      intro own mem
      obtain earlier | now := List.mem_append.1 mem
      · exact bound.blocks own earlier
      · rwa [List.mem_singleton.1 now]
    | head =>
      -- The names of the head are those that its scope knows of.
      simp only [purpose] at left
      obtain ⟨later, referred, rfl⟩ := Option.map_eq_some_iff.1 left
      obtain ⟨groundedLater, same⟩ := grounded_referAll groundedOuter referred
      refine ⟨groundedLater, ?_, bound.blocks⟩
      rintro names ⟨⟩
      show scope.names ++ scope.fresh ⊆ declaredIn later
      rw [declaredIn_inner (by simp [purpose]), ← same] at known
      intro name mem
      apply known
      simp only [Enclosure.known, List.mem_append] at mem ⊢
      tauto
    | group =>
      obtain rfl : _ = next := by simpa [purpose] using left
      refine .of groundedOuter bound.blocks ?_
      intro names isHead
      simp only [go] at isHead
      split at isHead <;> cases isHead
    | body | literal | index =>
      obtain rfl : _ = next := by simpa [purpose] using left
      exact .of groundedOuter bound.blocks (by simp [go])

/-- Every step keeps the reader bound. -/
theorem Bound.step {s next : Reader} (bound : s.Bound) {c : Cue} (stepped : s.step c = some next) : next.Bound := by
  cases c with
  | comment =>
    cases stepped
    exact bound
  | plain | dot | binder | head | body =>
    obtain ⟨middle, settled, rfl⟩ := Option.map_eq_some_iff.1 stepped
    have boundMiddle := bound.settle settled
    exact .of boundMiddle.scopes boundMiddle.blocks (by simp [go])
  | function | foreign =>
    obtain ⟨middle, settled, rest⟩ := Option.bind_eq_some_iff.1 stepped
    have boundMiddle := bound.settle settled
    obtain ⟨-, ⟨⟩⟩ := Option.ite_none_left_eq_some.1 rest
    exact .of boundMiddle.scopes boundMiddle.blocks (by simp [go])
  | comma =>
    obtain ⟨middle, settled, rest⟩ := Option.bind_eq_some_iff.1 stepped
    have boundMiddle := bound.settle settled
    obtain ⟨-, ⟨⟩⟩ := Option.ite_none_left_eq_some.1 rest
    exact .of (grounded_setParams boundMiddle.scopes (List.nil_subset _)) boundMiddle.blocks (by simp [go])
  | semicolon =>
    obtain ⟨middle, settled, rest⟩ := Option.bind_eq_some_iff.1 stepped
    have boundMiddle := bound.settle settled
    obtain ⟨-, ⟨⟩⟩ := Option.ite_none_left_eq_some.1 rest
    exact .of (grounded_endStatement boundMiddle.scopes) boundMiddle.blocks (by simp [go])
  | arrow =>
    simp only [Reader.step] at stepped
    split at stepped
    · rename_i held _
      obtain ⟨later, declared, rfl⟩ := Option.map_eq_some_iff.1 stepped
      obtain ⟨grounded, all⟩ := grounded_declareAll bound.scopes declared
      have known : held ⊆ declaredIn later := by simp [all]
      exact .of (grounded_setParams grounded known) bound.blocks (by simp [go])
    · cases stepped
      exact .of bound.scopes bound.blocks (by simp [go])
    · cases stepped
  | helper name =>
    simp only [Reader.step] at stepped
    split at stepped
    · obtain ⟨later, declared, rfl⟩ := Option.map_eq_some_iff.1 stepped
      obtain ⟨grounded, all⟩ := grounded_declare bound.scopes declared
      have known : [name] ⊆ declaredIn later := by simp [all]
      exact .of (grounded_beginDeclaration grounded known) bound.blocks (by simp [go])
    · obtain ⟨middle, settled, met⟩ := Option.bind_eq_some_iff.1 stepped
      exact (bound.settle settled).meet met
  | word =>
    simp only [Reader.step] at stepped
    split at stepped
    · cases stepped
      exact .of (grounded_beginDeclaration bound.scopes (List.nil_subset _)) bound.blocks (by simp [go])
    · obtain ⟨middle, settled, rfl⟩ := Option.map_eq_some_iff.1 stepped
      have boundMiddle := bound.settle settled
      exact .of boundMiddle.scopes boundMiddle.blocks (by simp [go])
  | opening bracket =>
    cases bracket with
    | square =>
      obtain ⟨middle, settled, rfl⟩ := Option.map_eq_some_iff.1 stepped
      exact (bound.settle settled).enter .index (by simp)
    | round =>
      simp only [Reader.step] at stepped
      split at stepped
      · cases stepped
        exact bound.enter .head (by simp)
      · obtain ⟨middle, settled, rfl⟩ := Option.map_eq_some_iff.1 stepped
        exact (bound.settle settled).enter .group (by simp)
    | curly =>
      simp only [Reader.step] at stepped
      split at stepped
      · -- The names of the head are declared in the block around the body.
        rename_i names isHead
        cases stepped
        have known : (Enclosure.start .body names).known ⊆ declaredIn s.scopes := by
          simpa [Enclosure.start, Enclosure.known] using bound.head names isHead
        exact .of ⟨known, bound_start .body names, bound.scopes⟩ bound.blocks (by simp [Reader.enter, go])
      · cases stepped
        exact bound.enter .block (by simp)
      · obtain ⟨middle, settled, rfl⟩ := Option.map_eq_some_iff.1 stepped
        exact (bound.settle settled).enter .literal (by simp)
  | closing bracket =>
    obtain ⟨middle, settled, left⟩ := Option.bind_eq_some_iff.1 stepped
    exact (bound.settle settled).leave left

/-- The run over tokens: whatever the reader accepts is bound. -/
theorem Bound.feed {s next : Reader} (bound : s.Bound) {ts : List Token} (fed : feed see s ts = some next) :
    next.Bound := by
  induction ts generalizing s with
  | nil =>
    cases fed
    exact bound
  | cons t ts ih =>
    obtain ⟨middle, seen, rest⟩ := Option.bind_eq_some_iff.1 fed
    exact ih (bound.step seen) rest

end Reader

/-- In code that is read to its end each block declares a name once and uses names that it has declared. -/
theorem blocksOf_bound {ts : List Token} {blocks : List Bindings} (read : blocksOf ts = some blocks) :
    ∀ own ∈ blocks, own.Bound := by
  obtain ⟨last, settled, ends⟩ := Option.bind_eq_some_iff.1 read
  obtain ⟨before, fed, settled⟩ := Option.bind_eq_some_iff.1 settled
  obtain ⟨-, ⟨⟩⟩ := Option.ite_none_right_eq_some.1 ends
  have start : Reader.start.Bound := .of trivial (by simp [Reader.start]) (by simp [Reader.start])
  exact ((start.feed fed).settle settled).blocks

-- The body of a conditional belongs to the block around it, an inner block does not.
example : (tokens "\x7b const steps = 1; if (here) \x7b go(steps); \x7d \x7d").bind blocksOf =
    some [⟨[.steps], [.steps]⟩] := by decide +kernel

example : (tokens "\x7b const steps = 1; \x7b go(steps); \x7d \x7d").bind blocksOf = none := by decide +kernel

end ScratchPage.Lexical
