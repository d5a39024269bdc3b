/-
`Press/Artifact.lean` -- a finished rendering.

The bytes of a rendering with their format. Its base64 text is for channels that carry
only text.
-/
import Galley.Base64
import Galley.OutputFormat

set_option autoImplicit false

namespace Galley

/-- A finished rendering. -/
structure Artifact where
  format : OutputFormat
  bytes : List UInt8
  deriving DecidableEq, Repr

namespace Artifact

/-- The media type. -/
def contentType (a : Artifact) : String := a.format.contentType

/-- The bytes as base64 text. -/
def toBase64 (a : Artifact) : String := Base64.encode a.bytes

/-- The number of bytes. -/
def size (a : Artifact) : Nat := a.bytes.length

/-- Whether there are no bytes. -/
def isEmpty (a : Artifact) : Bool := a.bytes.isEmpty

end Artifact

end Galley
