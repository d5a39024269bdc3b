/-
`Document/Error.lean` -- why a call on a document is refused.

A document refuses input that is malformed and names that are not registered. The two
are told apart by the outer constructor, and a registry error goes to the side that it
belongs to.
-/
import Galley.Registry.Error

set_option autoImplicit false

namespace Galley

/-- Malformed input. -/
inductive ValidationError where
  | rowWidth (row expected actual : Nat)
  | noColumns
  | tooManyItems (length limit : Nat)
  | revisionIndex (index length : Nat)
  | watermarkText (text : String) (found : Char)
  | registry (cause : Registry.Error)
  deriving DecidableEq, Repr

/-- The text of a validation error. -/
def ValidationError.message : ValidationError → String
  | .rowWidth row expected actual =>
    s!"Table row {row} has {actual} cell(s) but {expected} column(s) were declared"
  | .noColumns => "A table needs at least one column"
  | .tooManyItems length limit =>
    s!"List has {length} items but labels only run from a to z ({limit})"
  | .revisionIndex index length =>
    s!"Revision index {index} is out of range for a history of {length}"
  | .watermarkText text found =>
    "Watermark text '" ++ text ++ "' contains the TeX special character '" ++ found.toString ++ "'"
  | .registry cause => cause.message

/-- A refused call. -/
inductive DocumentError where
  | validation (cause : ValidationError)
  | lookup (cause : Registry.Error)
  deriving DecidableEq, Repr

namespace DocumentError

/-- A registry error is a miss or malformed input. -/
def ofRegistry (e : Registry.Error) : DocumentError :=
  if e.isLookup then .lookup e else .validation (.registry e)

/-- Whether the call named something that is not registered. -/
def isLookup : DocumentError → Bool
  | .lookup _ => true
  | .validation _ => false

/-- Whether the input was malformed. -/
def isValidation (e : DocumentError) : Bool := !e.isLookup

/-- The text of the error. -/
def message : DocumentError → String
  | .validation cause => "Validation error: " ++ cause.message
  | .lookup cause => "Lookup error: " ++ cause.message

end DocumentError

end Galley
