/-
`SystemFault.lean` -- what the operating system can refuse.

Reading a file, writing one and starting a program fail for reasons that lie outside
the library. The few that it meets are named here with the texts that users know; any
other reason is kept as it was given.
-/
set_option autoImplicit false

namespace Galley

/-- A refusal by the operating system. -/
inductive SystemFault where
  | notFound
  | argumentsTooLong
  | permissionDenied
  | notADirectory
  | isADirectory
  | nameTooLong
  | nulInFileName
  | nulInArgument
  | notUtf8
  | other (text : String)
  deriving DecidableEq, Repr

/-- The text of a refusal. -/
def SystemFault.message : SystemFault → String
  | .notFound => "No such file or directory (os error 2)"
  | .argumentsTooLong => "Argument list too long (os error 7)"
  | .permissionDenied => "Permission denied (os error 13)"
  | .notADirectory => "Not a directory (os error 20)"
  | .isADirectory => "Is a directory (os error 21)"
  | .nameTooLong => "File name too long (os error 36)"
  | .nulInFileName => "file name contained an unexpected NUL byte"
  | .nulInArgument => "nul byte found in provided data"
  | .notUtf8 => "stream did not contain valid UTF-8"
  | .other text => text

end Galley
