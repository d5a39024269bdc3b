/-
`Registry/Error.lean` -- what can go wrong with a registered name.

A look-up can miss, a registration can have a bad name or value, and a call can have
the wrong number of arguments. The difference between a miss and all the others is
kept apart to the outermost error, since only a miss may be cured by registering.
-/
import Galley.Colour

set_option autoImplicit false

namespace Galley.Registry

/-- What a name is registered as. -/
inductive Kind where
  | colour
  | style
  | command
  | counter
  deriving DecidableEq, Repr

/-- The word for a kind. -/
def Kind.label : Kind → String
  | .colour => "colour"
  | .style => "style"
  | .command => "macro"
  | .counter => "counter"

/-- Why a name is refused. -/
inductive NameFault where
  | empty
  | notLetters
  | colourName
  deriving DecidableEq, Repr

/-- The reason given for a fault. -/
def NameFault.reason : NameFault → String
  | .empty => "name is empty"
  | .notLetters => "only ASCII letters are allowed"
  | .colourName => "colour names must be non-empty and free of TeX special characters"

/-- A refused registration, look-up or call. -/
inductive Error where
  | unknown (kind : Kind) (name : String)
  | invalidName (kind : Kind) (name : String) (fault : NameFault)
  | invalidValue (kind : Kind) (name : String) (cause : ColourError)
  | tooManyParameters (name : String) (arity : Nat)
  | argumentCount (name : String) (expected actual : Nat)
  deriving DecidableEq, Repr

namespace Error

/-- Whether the error is a miss. -/
def isLookup : Error → Bool
  | .unknown .. => true
  | _ => false

/-- The text of the error. -/
def message : Error → String
  | .unknown kind name => "Unknown " ++ kind.label ++ " '" ++ name ++ "'"
  | .invalidName kind name fault =>
    "Invalid " ++ kind.label ++ " name '" ++ name ++ "': " ++ fault.reason
  | .invalidValue kind name cause =>
    "Invalid value for " ++ kind.label ++ " '" ++ name ++ "': " ++ cause.message
  | .tooManyParameters name arity =>
    "Macro '" ++ name ++ s!"' declares {arity} parameters; TeX allows at most 9"
  | .argumentCount name expected actual =>
    "Macro '" ++ name ++ s!"' takes {expected} argument(s), got {actual}"

end Error

end Galley.Registry
