import ScratchPage.Archive
import ScratchPage.Error

/-!
# Conversion errors

The causes that stop the conversion of an archive, each with its message.
-/

namespace ScratchPage
set_option autoImplicit false

/-- Why a conversion stopped. -/
inductive ConversionError where
  | inputNotFound (path : String)
  | inputUnresolved (words : String)
  | templateUnreadable (path : String)
  | badArchive (label : String) (fault : ArchiveFault)
  | invalidProject (label : String) (cause : CompileError)
  | notCompiled (label : String) (cause : CompileError)
  | codeNotStaged (path : String)
  | parentNotCreated (path : String)
  | nothingStaged (parent : String)
  | pageNotWritten (words : String)
  | assetNotWritten (fileName : String)
  | outputNotDirectory (path : String)
  | filesUnlisted (words : String)
  | fileNotMoved (path : String)
  | outputNotMoved (path : String)
  | codeNotWritten (path : String)

namespace ConversionError

/-- What the conversion was doing, or the words of the host. -/
def message : ConversionError → String
  | inputNotFound path => "Input file not found: '" ++ path ++ "'."
  | templateUnreadable path => "Failed to read template '" ++ path ++ "'."
  | badArchive label fault => fault.message label
  | invalidProject label _ => "Invalid project.json inside '" ++ label ++ "'."
  | notCompiled label _ => "Failed to compile '" ++ label ++ "'."
  | codeNotStaged path => "Failed to stage '" ++ path ++ "'."
  | parentNotCreated path => "Failed to create '" ++ path ++ "'."
  | nothingStaged parent => "Failed to create a staging directory in '" ++ parent ++ "'."
  | assetNotWritten fileName => "Failed to write asset '" ++ fileName ++ "'."
  | outputNotDirectory path => "Output path '" ++ path ++ "' is not a directory."
  | fileNotMoved path => "Failed to move '" ++ path ++ "' into place."
  | outputNotMoved path => "Failed to move output into '" ++ path ++ "'."
  | codeNotWritten path => "Failed to write '" ++ path ++ "'."
  | inputUnresolved words | pageNotWritten words | filesUnlisted words => words

/-- The error of the project behind a failed conversion. -/
def cause? : ConversionError → Option CompileError
  | invalidProject _ cause => some cause
  | notCompiled _ cause => some cause
  | _ => none

end ConversionError

end ScratchPage
