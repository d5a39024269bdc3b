/-
`Json/Value.lean` -- JSON values as they stand in a text.

A configuration is read strictly: whether a number is an integer literal, whether a
key is repeated and in which order the fields stand all matter to what is accepted.
So a value keeps them: a number is kept as it is spelt, and an object is the list of
its members. A string whose escapes name half of a surrogate pair has no text; it is
kept as `none`, because such a string does no harm where nobody reads it.
-/
set_option autoImplicit false

namespace Galley

/-- The exponent part of a number. -/
structure Json.Exponent where
  negative : Bool
  digits : List Char
  deriving DecidableEq, Repr

/-- A number as it is spelt: its digits before and after the point, where an empty
fraction stands for a number without a point. -/
structure Json.Number where
  negative : Bool
  whole : List Char
  fraction : List Char
  exponent : Option Json.Exponent
  deriving DecidableEq, Repr

/-- A JSON value. -/
inductive Json where
  | null
  | bool (value : Bool)
  | number (value : Json.Number)
  | string (text : Option String)
  | array (items : List Json)
  | object (members : List (Option String × Json))

namespace Json

/-- A string with a text. -/
def text (s : String) : Json := .string (some s)

/-- An object with the given members. -/
def record (members : List (String × Json)) : Json :=
  .object (members.map fun member => (some member.1, member.2))

/-- The integer literal of a natural number. -/
def natural (n : Nat) : Json :=
  .number { negative := false, whole := Nat.toDigits 10 n, fraction := [], exponent := none }

/-- Whether a number is spelt without a point and without an exponent. -/
def Number.isLiteral (n : Number) : Bool :=
  n.fraction.isEmpty && n.exponent.isNone

end Json

end Galley
