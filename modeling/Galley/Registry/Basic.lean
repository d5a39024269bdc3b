/-
`Registry/Basic.lean` -- a map from names to entries, in the order of the names.

An entry knows its own name and the fragment that declares it, so the map is a list
of entries, strictly increasing by name; a later entry takes the place of an earlier
one with its name. Texts are ordered by code points, which is the order of their UTF-8
bytes.
-/
import Galley.Registry.Error
import Galley.Tex

set_option autoImplicit false

namespace Galley

/-! ## Entries -/

/-- What can be registered: it has a kind, a name and a declaration. -/
class Registry.Entry (ε : Type) where
  kind : Registry.Kind
  name : ε → String
  definition : ε → Fragment

/-- A registry of one kind of entry. -/
structure Registry (ε : Type) where
  entries : List ε := []
  deriving DecidableEq

namespace Registry

/-- A control word consists of ASCII letters, or the typesetter would cut it short. -/
def checkControlWord (kind : Kind) (name : String) : Except Error Unit :=
  if name.isEmpty then .error (.invalidName kind name .empty)
  else if name.toList.all Char.isAlpha then .ok ()
  else .error (.invalidName kind name .notLetters)

variable {ε : Type} [Entry ε]

/-! ## Operations -/

/-- The registry without entries. -/
def empty : Registry ε := {}

/-- Puts an entry in its place, over the one that has its name. -/
def insertEntry (e : ε) : List ε → List ε
  | [] => [e]
  | x :: rest =>
    if Entry.name e < Entry.name x then e :: x :: rest
    else if Entry.name e = Entry.name x then e :: rest
    else x :: insertEntry e rest

/-- The registry with one more entry. -/
def insert (r : Registry ε) (e : ε) : Registry ε :=
  { entries := insertEntry e r.entries }

/-- The entry of a name, if there is one. -/
def find? (r : Registry ε) (name : String) : Option ε :=
  r.entries.find? fun e => Entry.name e = name

/-- The entry of a name; a miss is an error. -/
def get (r : Registry ε) (name : String) : Except Error ε :=
  match r.find? name with
  | some e => .ok e
  | none => .error (.unknown (Entry.kind ε) name)

/-- Whether a name is registered. -/
def contains (r : Registry ε) (name : String) : Bool :=
  (r.find? name).isSome

/-- The registered names in increasing order. -/
def names (r : Registry ε) : List String :=
  r.entries.map Entry.name

/-- The number of entries. -/
def size (r : Registry ε) : Nat := r.entries.length

/-- Whether there is no entry. -/
def isEmpty (r : Registry ε) : Bool := r.entries.isEmpty

end Registry

end Galley
