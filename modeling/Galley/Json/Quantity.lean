/-
`Json/Quantity.lean` -- what a number in a JSON text stands for.

Integer literals that fit 64 bits are exact. Every other number is a 64-bit binary
value, computed in two roundings: as many leading digits as 64 bits hold are taken as
an integer, digits after those only move the exponent, and the integer is multiplied
or divided by the power of ten that is left. A number too large for the format stands
for nothing.
-/
import Galley.Decimal.Reading
import Galley.Decimal.Shortest
import Galley.Json.Value

set_option autoImplicit false

namespace Galley.Json

open Galley.Decimal

/-- The meaning of a number. -/
inductive Quantity where
  /-- An integer literal below `2 ^ 64`. -/
  | natural (n : Nat)
  /-- The negative of a positive integer literal up to `2 ^ 63`. -/
  | negative (n : Nat)
  | real (value : Binary double)
  deriving DecidableEq, Repr

/-! ## Leading digits -/

/-- The first natural number that does not fit 64 bits. -/
def wordLimit : Nat := 18446744073709551616

/-- The largest magnitude of a negative 64-bit integer. -/
def negativeLimit : Nat := 9223372036854775808

/-- Takes digits onto `significand` as long as it stays below `2 ^ 64`; what is left
are the digits that did not fit. -/
def takeDigits (significand : Nat) : List Char → Nat × List Char
  | [] => (significand, [])
  | c :: rest =>
    let next := significand * 10 + (c.toNat - '0'.toNat)
    if next < wordLimit then takeDigits next rest else (significand, c :: rest)

/-- The exponent that a number is spelt with. -/
def Exponent.value (e : Exponent) : Int :=
  let size : Int := digitsValue e.digits
  if e.negative then -size else size

/-! ## Scaling by a power of ten -/

/-- The 64-bit value nearest to a power of ten. -/
def powerOfTen (n : Nat) : Binary double := .ofNat false (Nat.pow 10 n)

/-- `significand * 10 ^ exponent` in two roundings (three below `10 ^ -308`), unless it
is too large. -/
def scaled (significand : Nat) (exponent : Int) : Option (Binary double) :=
  let start : Binary double := .ofNat false significand
  if significand = 0 then some start
  else if 308 < exponent then none
  else if 0 ≤ exponent then
    match start.mul (powerOfTen exponent.toNat) with
    | .infinite _ => none
    | product => some product
  else if -308 ≤ exponent then some (start.div (powerOfTen (-exponent).toNat))
  else if -616 ≤ exponent then
    some ((start.div (powerOfTen 308)).div (powerOfTen (-exponent - 308).toNat))
  else some (.zero false)

/-- What a number stands for, unless it is too large. -/
def Number.quantity (n : Number) : Option Quantity :=
  let (significand, dropped) := takeDigits 0 n.whole
  if n.isLiteral && dropped.isEmpty && !(n.negative && (significand = 0 || negativeLimit < significand)) then
    some (if n.negative then .negative significand else .natural significand)
  else
    let (significand, left) := takeDigits significand n.fraction
    let taken : Int := (n.fraction.length : Int) - left.length
    let spelt : Int := (n.exponent.map Exponent.value).getD 0
    let magnitude := scaled significand ((dropped.length : Int) - taken + spelt)
    magnitude.map fun value => .real (if n.negative then value.neg else value)

/-! ## Narrowing -/

/-- The 32-bit value nearest to a quantity; a 64-bit value outside its range becomes an
infinity. -/
def Quantity.toSingle : Quantity → Binary single
  | .natural n => .ofNat false n
  | .negative n => .ofNat true n
  | .real value => value.convert single

/-! ## Writing -/

/-- The most digits that a written value has before its point. -/
def maxWholePlaces : Int := 13

/-- The most zeros that stand between the point of a written value and its first digit. -/
def maxLeadingZeros : Int := 5

/-- The number `digits * 10 ^ power`, with a digit on either side of the point. A value with
too many places on one side is written with an exponent, its first digit before the point and
the others, if there are any, behind it. -/
def Number.ofDecimal (negative : Bool) (digits : Nat) (power : Int) : Number :=
  let written := natDigits digits
  let places : Int := written.length + power
  if maxWholePlaces < places ∨ maxLeadingZeros < -places then
    { negative, whole := written.take 1, fraction := written.drop 1
      exponent := some { negative := places ≤ 0, digits := natDigits (places - 1).natAbs } }
  else if 0 ≤ power then
    { negative, whole := written ++ List.replicate power.toNat '0', fraction := ['0']
      exponent := none }
  else if 0 < places then
    { negative, whole := written.take places.toNat, fraction := written.drop places.toNat
      exponent := none }
  else
    { negative, whole := ['0'], fraction := List.replicate (-places).toNat '0' ++ written
      exponent := none }

/-- A finite 32-bit value as a number: the shortest decimal that reads back. -/
def Number.ofBinary (value : Binary single) : Option Number :=
  match value with
  | .finite negative mantissa exponent =>
    let decimal := if mantissa = 0 then (0, 0) else shortest single mantissa exponent
    some (.ofDecimal negative decimal.1 decimal.2)
  | _ => none

end Galley.Json
