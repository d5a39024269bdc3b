/-
`Press/Error.lean` -- why a document cannot be set up or rendered.

The outermost error says which part refused: the document, the typesetter, the system,
or the configuration, which can be unreadable as JSON or be unusable.
-/
import Galley.Document.Error
import Galley.Typesetter.Error

set_option autoImplicit false

namespace Galley

/-- Why a configuration is unusable. -/
inductive ConfigFault where
  | noProgram
  | noTime
  | jobName (name : String)
  deriving DecidableEq, Repr

/-- The text of a fault. -/
def ConfigFault.message : ConfigFault → String
  | .noProgram => "No compiler program configured."
  | .noTime => "Compiler timeout must be at least one second."
  | .jobName name =>
    "Job name '" ++ name ++ "' must be non-empty and use only letters, digits, '-' or '_'."

/-- Why a document cannot be set up or rendered. -/
inductive PressError where
  | document (cause : DocumentError)
  | compilation (cause : CompileError)
  | io (text : String)
  | config (fault : ConfigFault)
  | json
  deriving DecidableEq, Repr

namespace PressError

/-- The text of the error. -/
def message : PressError → String
  | .document cause => "Engine error: " ++ cause.message
  | .compilation cause => "Compilation failed: " ++ cause.message
  | .io text => "I/O error: " ++ text
  | .config fault => "Configuration is invalid: " ++ fault.message
  | .json => "JSON error: the text is no configuration"

/-- What the typesetter printed, when the failure came from a run of it. -/
def diagnostics? : PressError → Option String
  | .compilation cause => cause.diagnostics?
  | _ => none

end PressError

end Galley
