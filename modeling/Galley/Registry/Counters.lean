/-
`Registry/Counters.lean` -- counters and how often each was stepped.

The typesetter owns the numbers that are printed. What is kept here is which counters
are declared and how many steps were written for each, so that a reference to a
counter that does not exist is refused before anything is typeset.
-/
import Galley.Registry.Basic

set_option autoImplicit false

namespace Galley

open Registry

/-- A declared counter and the steps written for it. -/
structure Counter where
  name : String
  value : UInt32
  deriving DecidableEq, Repr

/-- The counters of a document, in the order of their declaration. -/
structure Counters where
  declared : List Counter := []
  deriving DecidableEq, Repr

namespace Counters

/-- The counter of numbered paragraphs. -/
def paragraphs : String := "enumcount"

/-- The counter of numbered headings. -/
def headings : String := "enumheadcount"

/-- No counters. -/
def empty : Counters := {}

/-- The value of a counter, if it is declared. -/
def value? (cs : Counters) (name : String) : Option UInt32 :=
  (cs.declared.find? fun c => c.name = name).map Counter.value

/-- Whether a counter is declared. -/
def contains (cs : Counters) (name : String) : Bool :=
  cs.declared.any fun c => c.name = name

/-- Declares a counter at zero. A counter that exists keeps its value and needs no new
declaration in the source. -/
def declare (cs : Counters) (name : String) : Except Error (Option Fragment × Counters) := do
  checkControlWord .counter name
  if cs.contains name then pure (none, cs)
  else
    pure (some (Tex.command "newcounter" [name]), { declared := cs.declared ++ [⟨name, 0⟩] })

/-- Adds one to a counter. -/
def step (cs : Counters) (name : String) : Except Error (Fragment × Counters) :=
  if cs.contains name then
    .ok (Tex.command "stepcounter" [name],
      { declared := cs.declared.map fun c =>
          if c.name = name then { c with value := c.value + 1 } else c })
  else .error (.unknown .counter name)

/-- The source text of a counter's number. -/
def reference (cs : Counters) (name : String) : Except Error Fragment :=
  if cs.contains name then .ok (Tex.control ("the" ++ name))
  else .error (.unknown .counter name)

end Counters

end Galley
