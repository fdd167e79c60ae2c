/-!
# Diagnostics

Findings that do not stop a conversion, in the order in which they were raised.
-/

namespace ScratchPage
set_option autoImplicit false

/-- How much a finding matters. -/
inductive Severity where
  | debug
  | warning
  | error
deriving DecidableEq, Repr

namespace Severity

def label : Severity → String
  | .debug => "debug"
  | .warning => "warning"
  | .error => "error"

/-- Warnings and errors are shown to the user. -/
def isNotable : Severity → Bool
  | .debug => false
  | .warning => true
  | .error => true

end Severity

/-- One finding. -/
structure Diagnostic where
  severity : Severity
  message : String
deriving DecidableEq, Repr

/-- A finding as one line of text. -/
def Diagnostic.text (d : Diagnostic) : String := "[" ++ d.severity.label ++ "] " ++ d.message

/-- The findings of a conversion, oldest first. -/
abbrev Log := List Diagnostic

namespace Log

/-- The number of findings of a severity. -/
def count (log : Log) (severity : Severity) : Nat :=
  (log.filter fun d => d.severity == severity).length

/-- The findings that are shown to the user. -/
def notable (log : Log) : Log := log.filter (·.severity.isNotable)

/-- One text occurs inside another. -/
def occursIn (needle : List Char) : List Char → Bool
  | [] => needle.isEmpty
  | c :: rest => needle.isPrefixOf (c :: rest) || occursIn needle rest

/-- Some finding of a severity has a message with a given part. -/
def contains (log : Log) (severity : Severity) (part : String) : Bool :=
  log.any fun d => d.severity == severity && occursIn part.toList d.message.toList

end Log

end ScratchPage
