/-
`Json/Printer.lean` -- a JSON value as compact text.

No blanks are written. In a string only what must be escaped is: the quote, the
backslash and the control characters, five of which have a letter of their own and
the others four lower-case hexadecimal digits.
-/
import Galley.Json.Value
import Galley.Text.Hex

set_option autoImplicit false

namespace Galley.Json

/-! ## Strings and numbers -/

/-- A character inside a string. -/
def escape (c : Char) : List Char :=
  if c = '"' then ['\\', '"']
  else if c = '\\' then ['\\', '\\']
  else if c = '\n' then ['\\', 'n']
  else if c = '\r' then ['\\', 'r']
  else if c = '\t' then ['\\', 't']
  else if c = '\x08' then ['\\', 'b']
  else if c = '\x0c' then ['\\', 'f']
  else if c.toNat < 0x20 then
    ['\\', 'u', '0', '0', Text.lowerHexDigit (c.toNat / 16), Text.lowerHexDigit (c.toNat % 16)]
  else [c]

/-- A string with its quotes. -/
def quote (s : String) : String :=
  String.ofList ('"' :: s.toList.flatMap escape ++ ['"'])

/-- A string that may have no text; half a surrogate pair then stands for it. -/
def quoteText : Option String → String
  | some s => quote s
  | none => "\"\\ud800\""

/-- A number as it is spelt. -/
def Number.spell (n : Number) : String :=
  let sign := if n.negative then ['-'] else []
  let fraction := if n.fraction.isEmpty then [] else '.' :: n.fraction
  let exponent := match n.exponent with
    | none => []
    | some e => 'e' :: (if e.negative then ['-'] else []) ++ e.digits
  String.ofList (sign ++ n.whole ++ fraction ++ exponent)

/-! ## Values -/

mutual

/-- The compact text of a value. -/
def compact : Json → String
  | .null => "null"
  | .bool value => if value then "true" else "false"
  | .number value => value.spell
  | .string text => quoteText text
  | .array items => "[" ++ String.intercalate "," (compactItems items) ++ "]"
  | .object members =>
    "\x7b" ++ String.intercalate "," (compactMembers members) ++ "\x7d"

/-- The compact texts of the items of an array. -/
def compactItems : List Json → List String
  | [] => []
  | item :: rest => compact item :: compactItems rest

/-- The compact texts of the members of an object. -/
def compactMembers : List (Option String × Json) → List String
  | [] => []
  | (key, value) :: rest => (quoteText key ++ ":" ++ compact value) :: compactMembers rest

end

end Galley.Json
