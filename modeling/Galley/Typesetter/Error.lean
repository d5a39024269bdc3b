/-
`Typesetter/Error.lean` -- why typesetting fails.

A run can fail to start, end with an error, not end in time, or end well and leave
nothing. Only a run that ended with an error has diagnostics to show.
-/
import Galley.OutputFormat
import Galley.Text.Duration

set_option autoImplicit false

namespace Galley

/-- A failed run of the typesetter. -/
inductive CompileError where
  | spawn (program reason : String)
  | failed (status diagnostics : String)
  | timeout (millis : Nat)
  | missingArtifact (format : BinaryFormat)
  | io (text : String)
  deriving DecidableEq, Repr

namespace CompileError

/-- The text of the error. -/
def message : CompileError → String
  | .spawn program reason => "Failed to start compiler '" ++ program ++ "': " ++ reason
  | .failed status diagnostics => "Compiler exited with " ++ status ++ ":\n" ++ diagnostics
  | .timeout millis => "Compiler did not finish within " ++ Text.durationText millis
  | .missingArtifact format =>
    "Compiler reported success but produced no " ++ format.name ++ " output"
  | .io text => "I/O error: " ++ text

/-- What the typesetter printed, when it ran far enough to print anything. -/
def diagnostics? : CompileError → Option String
  | .failed _ diagnostics => some diagnostics
  | _ => none

end CompileError

end Galley
