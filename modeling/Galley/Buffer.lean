/-
`Buffer.lean` -- the three partitions of a document.

Whatever the order of the calls, the source text is the system directives, then the
definitions, then the body. Inside a partition the order of insertion is the only
order.
-/
import Galley.Tex

set_option autoImplicit false

namespace Galley

/-- The partitions, in the order of the source text. -/
inductive Partition where
  /-- Directives for the typesetter and its packages. -/
  | system
  /-- Commands, colours, styles and counters. -/
  | definitions
  /-- Content. -/
  | body
  deriving DecidableEq, Repr

/-- The fragments of a document by partition. -/
structure Buffer where
  system : List Fragment := []
  definitions : List Fragment := []
  body : List Fragment := []
  deriving DecidableEq, Repr

namespace Buffer

/-- The buffer without fragments. -/
def empty : Buffer := {}

/-- The fragments of a partition. -/
def fragments (b : Buffer) : Partition → List Fragment
  | .system => b.system
  | .definitions => b.definitions
  | .body => b.body

/-- The buffer with other fragments in one partition. -/
def replace (b : Buffer) (p : Partition) (fragments : List Fragment) : Buffer :=
  match p with
  | .system => { b with system := fragments }
  | .definitions => { b with definitions := fragments }
  | .body => { b with body := fragments }

/-- The buffer with one more fragment at the end of a partition. -/
def append (b : Buffer) (p : Partition) (fragment : Fragment) : Buffer :=
  b.replace p (b.fragments p ++ [fragment])

/-- The last fragment of a partition and the buffer without it. -/
def removeLast (b : Buffer) (p : Partition) : Option Fragment × Buffer :=
  ((b.fragments p).getLast?, b.replace p (b.fragments p).dropLast)

/-- All fragments in the order of the source text. -/
def toList (b : Buffer) : List Fragment :=
  b.system ++ b.definitions ++ b.body

/-- The source text. -/
def source (b : Buffer) : String :=
  String.intercalate "\n" b.toList

/-- The number of fragments. -/
def size (b : Buffer) : Nat :=
  b.system.length + b.definitions.length + b.body.length

/-- Whether there is no fragment. -/
def isEmpty (b : Buffer) : Bool := b.size == 0

end Buffer

end Galley
