/-
`Decimal/Reading.lean` -- a number written in decimal, read as a binary value.

The accepted form is an optional sign, then digits with at most one point among or
around them (at least one digit in all) and an optional exponent, or one of the names
`inf`, `infinity` and `nan` in any case. The value is rounded once, to nearest.
-/
import Galley.Decimal.Binary

set_option autoImplicit false

namespace Galley.Decimal

/-- The value of a list of decimal digits. -/
def digitsValue (digits : List Char) : Nat :=
  digits.foldl (fun n c => n * 10 + (c.toNat - '0'.toNat)) 0

/-- The leading digits of a text and what follows them. -/
def spanDigits (cs : List Char) : List Char × List Char :=
  (cs.takeWhile Char.isDigit, cs.dropWhile Char.isDigit)

/-- The exponent at the end of a number: nothing, or `e`, a sign and digits. -/
def readExponent : List Char → Option Int
  | [] => some 0
  | c :: rest =>
    if c = 'e' || c = 'E' then
      let (negative, rest) := match rest with
        | '+' :: rest => (false, rest)
        | '-' :: rest => (true, rest)
        | rest => (false, rest)
      let (digits, rest) := spanDigits rest
      if digits.isEmpty || !rest.isEmpty then none
      else
        let value : Int := digitsValue digits
        some (if negative then -value else value)
    else none

/-- A number without its sign. -/
def readUnsigned {f : Format} (negative : Bool) (cs : List Char) : Option (Binary f) :=
  let (whole, rest) := spanDigits cs
  let (fraction, rest) := match rest with
    | '.' :: rest => spanDigits rest
    | rest => ([], rest)
  if whole.isEmpty && fraction.isEmpty then none
  else do
    let exponent ← readExponent rest
    pure (.ofDecimal negative (digitsValue (whole ++ fraction)) (exponent - fraction.length))

/-- The binary value nearest to a number written in decimal. -/
def Binary.read? (f : Format) (text : String) : Option (Binary f) :=
  let (negative, cs) := match text.toList with
    | '+' :: rest => (false, rest)
    | '-' :: rest => (true, rest)
    | cs => (false, cs)
  match String.ofList (cs.map Char.toLower) with
  | "nan" => some .nan
  | "inf" | "infinity" => some (.infinite negative)
  | _ => readUnsigned negative cs

end Galley.Decimal
