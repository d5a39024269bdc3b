/-
`Json/Parser.lean` -- the strict JSON grammar.

Nothing beyond the grammar is accepted: no comments, no trailing commas, no leading
zeros, no raw control characters in strings, and only blanks after the value. Each
rule of the grammar is a function from the characters that are left to what it read
and what is left after it. Values nest, so those rules carry a bound on the number of
steps; every step takes a character, and the length of the text is bound enough.
-/
import Galley.Json.Value
import Galley.Text.Hex

set_option autoImplicit false

namespace Galley.Json

/-! ## Blanks, numbers -/

/-- The four blanks of the grammar. -/
def isGap (c : Char) : Bool :=
  c = ' ' || c = '\n' || c = '\t' || c = '\r'

/-- What follows the blanks at the front. -/
def skipGaps (cs : List Char) : List Char := cs.dropWhile isGap

/-- One or more digits. -/
def readDigits (cs : List Char) : Option (List Char × List Char) :=
  let digits := cs.takeWhile Char.isDigit
  if digits.isEmpty then none else some (digits, cs.dropWhile Char.isDigit)

/-- The digits before the point: a lone zero, or digits that start with another. -/
def readWhole : List Char → Option (List Char × List Char)
  | '0' :: rest => if (rest.head?.map Char.isDigit).getD false then none else some (['0'], rest)
  | cs => readDigits cs

/-- The point and the digits after it, if there is a point. -/
def readFraction : List Char → Option (List Char × List Char)
  | '.' :: rest => readDigits rest
  | cs => some ([], cs)

/-- The exponent, if there is one. -/
def readExponent : List Char → Option (Option Exponent × List Char)
  | [] => some (none, [])
  | c :: rest =>
    if c = 'e' || c = 'E' then
      let (negative, rest) := match rest with
        | '+' :: rest => (false, rest)
        | '-' :: rest => (true, rest)
        | rest => (false, rest)
      (readDigits rest).map fun (digits, rest) => (some { negative, digits }, rest)
    else some (none, c :: rest)

/-- A number. -/
def readNumber (cs : List Char) : Option (Number × List Char) := do
  let (negative, cs) := match cs with
    | '-' :: rest => (true, rest)
    | cs => (false, cs)
  let (whole, cs) ← readWhole cs
  let (fraction, cs) ← readFraction cs
  let (exponent, cs) ← readExponent cs
  pure ({ negative, whole, fraction, exponent }, cs)

/-! ## Strings -/

/-- The value of four hexadecimal digits. -/
def hexQuad? (a b c d : Char) : Option Nat := do
  let a ← Text.hexValue? a
  let b ← Text.hexValue? b
  let c ← Text.hexValue? c
  let d ← Text.hexValue? d
  pure (a * 4096 + b * 256 + c * 16 + d)

/-- The character of a one-letter escape. -/
def shortEscape? (c : Char) : Option Char :=
  if c = '"' || c = '\\' || c = '/' then some c
  else if c = 'b' then some '\x08'
  else if c = 'f' then some '\x0c'
  else if c = 'n' then some '\n'
  else if c = 'r' then some '\r'
  else if c = 't' then some '\t'
  else none

/-- The code points and escaped units up to the closing quote, after those in `units`,
which holds them latest first. -/
def readUnits (units : List Nat) : List Char → Option (List Nat × List Char)
  | [] => none
  | '"' :: rest => some (units.reverse, rest)
  | '\\' :: 'u' :: a :: b :: c :: d :: rest =>
    match hexQuad? a b c d with
    | some unit => readUnits (unit :: units) rest
    | none => none
  | '\\' :: c :: rest =>
    match shortEscape? c with
    | some c => readUnits (c.toNat :: units) rest
    | none => none
  | c :: rest => if c.toNat < 0x20 then none else readUnits (c.toNat :: units) rest

/-- Whether a unit is the first half of a surrogate pair. -/
def isHigh (unit : Nat) : Bool := 0xD800 ≤ unit && unit < 0xDC00

/-- Whether a unit is the second half of a surrogate pair. -/
def isLow (unit : Nat) : Bool := 0xDC00 ≤ unit && unit < 0xE000

/-- The characters of a list of units, after those in `done`, which holds them latest
first. There is no text when a half of a pair stands alone. -/
def joinPairs (done : List Char) : List Nat → Option (List Char)
  | [] => some done.reverse
  | [unit] => if isHigh unit || isLow unit then none else some (Char.ofNat unit :: done).reverse
  | unit :: next :: rest =>
    if isHigh unit then
      if isLow next then
        joinPairs (Char.ofNat (0x10000 + (unit - 0xD800) * 0x400 + (next - 0xDC00)) :: done) rest
      else none
    else if isLow unit then none
    else joinPairs (Char.ofNat unit :: done) (next :: rest)

/-- A string, after its opening quote. -/
def readString (cs : List Char) : Option (Option String × List Char) :=
  (readUnits [] cs).map fun (units, rest) => ((joinPairs [] units).map String.ofList, rest)

/-! ## Values -/

/-- What follows a fixed word. -/
def readWord : List Char → List Char → Option (List Char)
  | [], cs => some cs
  | c :: word, d :: cs => if c = d then readWord word cs else none
  | _ :: _, [] => none

mutual

/-- A value, after any blanks. -/
def readValue : Nat → List Char → Option (Json × List Char)
  | 0, _ => none
  | steps + 1, cs =>
    match skipGaps cs with
    | '[' :: rest =>
      match skipGaps rest with
      | ']' :: rest => some (.array [], rest)
      | rest => readItems steps [] rest
    | '{' :: rest =>
      match skipGaps rest with
      | '}' :: rest => some (.object [], rest)
      | rest => readMembers steps [] rest
    | '"' :: rest => (readString rest).map fun (content, rest) => (.string content, rest)
    | 'n' :: rest => (readWord "ull".toList rest).map fun rest => (.null, rest)
    | 't' :: rest => (readWord "rue".toList rest).map fun rest => (.bool true, rest)
    | 'f' :: rest => (readWord "alse".toList rest).map fun rest => (.bool false, rest)
    | cs => (readNumber cs).map fun (spelt, rest) => (.number spelt, rest)

/-- The items of an array up to its closing bracket, after those in `items`, which
holds them latest first. -/
def readItems : Nat → List Json → List Char → Option (Json × List Char)
  | 0, _, _ => none
  | steps + 1, items, cs =>
    match readValue steps cs with
    | none => none
    | some (item, rest) =>
      match skipGaps rest with
      | ',' :: rest => readItems steps (item :: items) rest
      | ']' :: rest => some (.array (item :: items).reverse, rest)
      | _ => none

/-- The members of an object up to its closing brace, after those in `members`, which
holds them latest first. -/
def readMembers :
    Nat → List (Option String × Json) → List Char → Option (Json × List Char)
  | 0, _, _ => none
  | steps + 1, members, cs =>
    match skipGaps cs with
    | '"' :: rest =>
      match readString rest with
      | none => none
      | some (key, rest) =>
        match skipGaps rest with
        | ':' :: rest =>
          match readValue steps rest with
          | none => none
          | some (value, rest) =>
            match skipGaps rest with
            | ',' :: rest => readMembers steps ((key, value) :: members) rest
            | '}' :: rest => some (.object ((key, value) :: members).reverse, rest)
            | _ => none
        | _ => none
    | _ => none

end

/-- The value that a text holds, if the text is one value and blanks. -/
def parse? (text : String) : Option Json := do
  let cs := text.toList
  let (value, rest) ← readValue (cs.length + 1) cs
  guard (skipGaps rest).isEmpty
  pure value

end Galley.Json
