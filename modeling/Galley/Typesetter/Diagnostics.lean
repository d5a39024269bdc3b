/-
`Typesetter/Diagnostics.lean` -- the part of a log that is worth showing.

An error line starts with an exclamation mark, and the line after it says where. All
such pairs are shown, in the order of the log; a log without error lines is cut to its
last lines.
-/
import Galley.Text.Lines

set_option autoImplicit false

namespace Galley.Diagnostics

/-- How many lines are kept of a log without error lines. -/
def tailLength : Nat := 40

/-- Whether a line reports an error. -/
def isErrorLine (line : String) : Bool := line.toList.head? == some '!'

/-- Every error line with the line after it. -/
def errorLines : List String → List String
  | [] => []
  | line :: rest => (if isErrorLine line then line :: rest.take 1 else []) ++ errorLines rest

/-- The lines of a log that are shown. -/
def excerpt (lines : List String) : List String :=
  let errors := errorLines lines
  if errors.isEmpty then lines.drop (lines.length - tailLength) else errors

/-- The diagnostics of a log. -/
def ofLog (log : String) : String :=
  String.intercalate "\n" (excerpt (Text.lines log))

end Galley.Diagnostics
