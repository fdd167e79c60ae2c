import ScratchPage.Arguments
import ScratchPage.Conversion.Convert

/-!
# The command

The command converts the archive that its arguments name, shows the findings that matter and sums up.
-/

namespace ScratchPage
set_option autoImplicit false

/-- The conversion that a command line asks for. -/
def Arguments.options (arguments : Arguments) : ConversionOptions where
  input := arguments.input
  output := arguments.output
  template := arguments.template
  emitCode := arguments.emitCode

namespace Conversion

variable {m : Type → Type} {σ : Type} [Monad m] [Host m σ]

/-- The last line of a command. -/
def summary (log : Log) (output : String) : String :=
  "Done: " ++ Json.intText (log.count .error) ++ " error(s), " ++ Json.intText (log.count .warning) ++
    " warning(s). Output in '" ++ output ++ "'."

/-- Runs the command. -/
def command (arguments : Arguments) : ConversionT m Unit := do
  let log ← convert arguments.options
  log.notable.forM fun d => (Host.say d.text : m Unit)
  (Host.say (summary log arguments.output) : m Unit)

end Conversion

end ScratchPage
