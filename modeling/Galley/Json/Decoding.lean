/-
`Json/Decoding.lean` -- how JSON values are read as typed ones.

A record is read from an object or from an array of its fields in order. The two forms
are first brought to one: a list with an optional value per field. After that a field
is either required or has a default, and nothing is ever converted: a number is not a
string and the other way round. `none` says that a value cannot be read.
-/
import Galley.Json.Quantity

set_option autoImplicit false

namespace Galley.Json

open Galley.Decimal

/-! ## Plain values -/

/-- A truth value. -/
def asBool? : Json → Option Bool
  | .bool value => some value
  | _ => none

/-- A string that has a text. -/
def asText? : Json → Option String
  | .string content => content
  | _ => none

/-- An array whose items can all be read. -/
def asList? {α : Type} (read : Json → Option α) : Json → Option (List α)
  | .array items => items.mapM read
  | _ => none

/-- An integer literal below `2 ^ 64`. -/
def asNatural? : Json → Option Nat
  | .number spelt =>
    match spelt.quantity with
    | some (.natural n) => some n
    | _ => none
  | _ => none

/-- Any number, narrowed to 32 bits. -/
def asSingle? : Json → Option (Binary single)
  | .number spelt => spelt.quantity.map Quantity.toSingle
  | _ => none

/-- A value that may be absent, which `null` says. -/
def asOptional? {α : Type} (read : Json → Option α) : Json → Option (Option α)
  | .null => some none
  | value => (read value).map some

/-- A choice by name: the name, or an object whose only member has that name and no
value. -/
def asName? : Json → Option String
  | .string content => content
  | .object [(key, .null)] => key
  | _ => none

/-! ## Records -/

/-- The names under which a field may stand in an object, its own name first. -/
abbrev FieldNames := List String

/-- The position of the field that a key names. -/
def fieldIndex? (fields : List FieldNames) (key : String) : Option Nat :=
  fields.findIdx? fun names => names.contains key

/-- Puts the members of an object into the slots of their fields. A member that names no
field is passed over; a second value for one field is refused. -/
def fillSlots (fields : List FieldNames) :
    List (Option Json) → List (Option String × Json) → Option (List (Option Json))
  | slots, [] => some slots
  | _, (none, _) :: _ => none
  | slots, (some key, value) :: rest =>
    match fieldIndex? fields key with
    | none => fillSlots fields slots rest
    | some i =>
      match slots[i]? with
      | some none => fillSlots fields (slots.set i (some value)) rest
      | _ => none

/-- The value of each field of a record, where it has one. -/
def slots? (fields : List FieldNames) : Json → Option (List (Option Json))
  | .object members => fillSlots fields (fields.map fun _ => none) members
  | .array items =>
    if items.length ≤ fields.length then
      some (items.map some ++ List.replicate (fields.length - items.length) none)
    else none
  | _ => none

/-- Reads a field that has to be there. -/
def required {α : Type} (read : Json → Option α) (slot : Option Json) : Option α :=
  slot.bind read

/-- Reads a field that has a default. -/
def defaulted {α : Type} (default : α) (read : Json → Option α) : Option Json → Option α
  | none => some default
  | some value => read value

/-! ## Members of an object -/

/-- The last value that stands under a key. -/
def member? (key : String) : Json → Option Json
  | .object members => (members.reverse.find? fun member => member.1 == some key).map Prod.snd
  | _ => none

end Galley.Json
