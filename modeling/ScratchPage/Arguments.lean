/-!
# Command line arguments

The arguments name an input file, an output directory, and options. An option that takes a value is
held back until its value is known, and only then checked: so of two faults the one that is noticed
first is not always the one that stands first.
-/

namespace ScratchPage
set_option autoImplicit false

/-- What is wrong with a command line, or that help was asked for. -/
inductive UsageError where
  | missingInput
  | unknownArgument
  | invalidValue
  | repeated
  | unexpectedValue
  | help
deriving DecidableEq, Repr

/-- What a command line asks for. -/
structure Arguments where
  input : String
  output : String
  template : Option String
  emitCode : Option String
  verbose : Bool
deriving DecidableEq, Repr

namespace Arguments

/-- The arguments that take a value. -/
inductive Slot where
  | input
  | output
  | template
  | emitCode
deriving DecidableEq, Repr

/-- An argument whose value is still to be taken over. -/
structure Pending where
  slot : Slot
  value : Option String
deriving DecidableEq, Repr

/-- What has been read of a command line. -/
structure Progress where
  input : Option String := none
  output : Option String := none
  template : Option String := none
  emitCode : Option String := none
  verbose : Bool := false
  pending : Option Pending := none
  trailing : Bool := false
deriving DecidableEq, Repr

namespace Progress

def valueOf (p : Progress) : Slot → Option String
  | .input => p.input
  | .output => p.output
  | .template => p.template
  | .emitCode => p.emitCode

def setValue (p : Progress) (value : String) : Slot → Progress
  | .input => { p with input := some value }
  | .output => { p with output := some value }
  | .template => { p with template := some value }
  | .emitCode => { p with emitCode := some value }

/-- Takes over the value of an argument, which is given once and is not empty. -/
def assign (p : Progress) (slot : Slot) (value : String) : Except UsageError Progress :=
  if (p.valueOf slot).isSome then .error .repeated
  else if value.isEmpty then .error .invalidValue
  else .ok (p.setValue value slot)

/-- Takes over the argument that was held back. -/
def settle (p : Progress) : Except UsageError Progress :=
  match p.pending with
  | none => .ok p
  | some ⟨_, none⟩ => .error .invalidValue
  | some ⟨slot, some value⟩ => { p with pending := none }.assign slot value

/-- Holds an argument back. -/
def hold (p : Progress) (slot : Slot) (value : Option String) : Progress :=
  { p with pending := some ⟨slot, value⟩ }

/-- The place of the next positional argument. -/
def nextPlace? (p : Progress) : Option Slot :=
  let taken (slot : Slot) : Bool :=
    (p.valueOf slot).isSome || (p.pending.map (·.slot)) == some slot
  if !taken .input then some .input
  else if !taken .output then some .output
  else none

/-- Reads a positional argument. -/
def positional (p : Progress) (value : String) : Except UsageError Progress :=
  match p.nextPlace? with
  | none => .error .unknownArgument
  | some place => (p.settle).map (·.hold place (some value))

/-- Reads the flag for more output. -/
def setVerbose (p : Progress) : Except UsageError Progress := do
  let p ← p.settle
  if p.verbose then .error .repeated else .ok { p with verbose := true }

/-- Reads the flag for help. -/
def askHelp (p : Progress) : Except UsageError Progress :=
  (p.settle).bind fun _ => .error .help

/-- Reads a flag that was given with or without a value. -/
def flag (attached : Option String) (given : Except UsageError Progress) : Except UsageError Progress :=
  if attached.isSome then .error .unexpectedValue else given

/-- Reads an option that takes a value, which is attached or follows as the next argument. -/
def option (p : Progress) (slot : Slot) (attached : Option String) : Except UsageError Progress := do
  let p ← p.settle
  match attached with
  | some value => p.assign slot value
  | none => .ok (p.hold slot none)

/-- Reads a long option, given by its name and the value attached to it. -/
def long (p : Progress) (name : String) (attached : Option String) : Except UsageError Progress :=
  if name == "template" then p.option .template attached
  else if name == "emit-js" then p.option .emitCode attached
  else if name == "verbose" then flag attached p.setVerbose
  else if name == "help" then flag attached p.askHelp
  else .error .unknownArgument

/-- Reads a run of one-letter flags. -/
def short (p : Progress) : List Char → Except UsageError Progress
  | [] => .ok p
  | c :: rest =>
    if c = 'v' then p.setVerbose.bind fun p => p.short rest
    else if c = 'h' then p.askHelp
    else .error .unknownArgument

/-- Reads an argument that is no option: the value that an option waits for, or a positional one. -/
def plain (p : Progress) (value : String) : Except UsageError Progress :=
  match p.pending with
  | some ⟨slot, none⟩ => .ok (p.hold slot (some value))
  | _ => p.positional value

/-- Splits a long option at its first equals sign. -/
def splitAttached (text : List Char) : String × Option String :=
  let name := text.takeWhile (· != '=')
  match text.dropWhile (· != '=') with
  | [] => (String.ofList name, none)
  | _ :: value => (String.ofList name, some (String.ofList value))

/-- Reads one argument. After two dashes every argument is positional. -/
def next (p : Progress) (argument : String) : Except UsageError Progress :=
  if p.trailing then p.positional argument
  else
    match argument.toList with
    | ['-', '-'] => .ok { p with trailing := true }
    | '-' :: '-' :: text => let (name, attached) := splitAttached text; p.long name attached
    | '-' :: c :: rest => p.short (c :: rest)
    | _ => p.plain argument

/-- Ends the command line, which names at least the input. -/
def finish (p : Progress) : Except UsageError Arguments := do
  let p ← p.settle
  match p.input with
  | none => .error .missingInput
  | some input => .ok ⟨input, p.output.getD "output", p.template, p.emitCode, p.verbose⟩

end Progress

/-- Reads a command line, given without the name of the program. -/
def read (arguments : List String) : Except UsageError Arguments :=
  (arguments.foldlM Progress.next {}).bind Progress.finish

end Arguments

end ScratchPage
