/-
`Decimal/Shortest.lean` -- the fewest decimal digits that read back as a binary value.

The reals that round to a value form an interval around it, whose ends belong to it
exactly when the mantissa is even. On the grid of multiples of `10 ^ t` only the two
neighbours of the value can be the nearest grid points inside that interval, so the
search walks from a coarse grid to finer ones and stops at the first with a neighbour
inside; of two such neighbours the nearer one wins, and of two equally near the upper
one. Written out, a value has no exponent: zeros fill the places up to the point.
-/
import Galley.Decimal.Binary

set_option autoImplicit false

namespace Galley.Decimal

/-! ## The search -/

/-- The interval of reals that round to a value, on a common scale: `value`, `low` and
`high` count units of `unit / scale`, where the grid step is one. -/
structure Neighbourhood where
  value : Nat
  low : Nat
  high : Nat
  closed : Bool

/-- Quarter units of the last place: the value and the ends of its interval. The gap
below a power of two is half the gap above it. -/
def Neighbourhood.of (f : Format) (mantissa : Nat) (exponent : Int) : Neighbourhood :=
  let atPowerOfTwo := mantissa == Nat.pow 2 (f.precision - 1) && f.minExponent < exponent
  { value := 4 * mantissa
    low := 4 * mantissa - (if atPowerOfTwo then 1 else 2)
    high := 4 * mantissa + 2
    closed := mantissa % 2 == 0 }

/-- Whether the grid point `point` lies in the interval, when a quarter unit is
`unit / scale` grid steps. -/
def Neighbourhood.holds (n : Neighbourhood) (unit scale point : Nat) : Bool :=
  if n.closed then n.low * unit ≤ point * scale && point * scale ≤ n.high * unit
  else n.low * unit < point * scale && point * scale < n.high * unit

/-- The neighbour of the value on one grid that reads back, if there is one. -/
def Neighbourhood.onGrid (n : Neighbourhood) (unit scale : Nat) : Option Nat :=
  let below := n.value * unit / scale
  let above := below + 1
  match n.holds unit scale below, n.holds unit scale above with
  | false, false => none
  | true, false => some below
  | false, true => some above
  | true, true =>
    let fromBelow := n.value * unit - below * scale
    let toAbove := above * scale - n.value * unit
    if fromBelow < toAbove then some below else some above

/-- Tries the grids `10 ^ top`, `10 ^ (top - 1)`, … in turn. -/
def searchGrids (n : Neighbourhood) (exponent : Int) : Nat → Int → Nat × Int
  | 0, top => (0, top)
  | tries + 1, top =>
    let unit := Nat.pow 2 (exponent - 2).toNat * Nat.pow 10 (-top).toNat
    let scale := Nat.pow 2 (2 - exponent).toNat * Nat.pow 10 top.toNat
    match n.onGrid unit scale with
    | some digits => (digits, top)
    | none => searchGrids n exponent tries (top - 1)

/-- The shortest decimal `digits * 10 ^ power` that reads back as the positive value
`mantissa * 2 ^ exponent`. The first grid is coarser than the value, and no value of
the two formats needs more than 17 digits. -/
def shortest (f : Format) (mantissa : Nat) (exponent : Int) : Nat × Int :=
  let bits : Int := (mantissa.log2 : Int) + 1 + exponent
  searchGrids (.of f mantissa exponent) exponent 25 ((bits * 30103).fdiv 100000 + 2)

/-! ## Writing out -/

/-- The decimal digits of a natural number. -/
def natDigits (n : Nat) : List Char := Nat.toDigits 10 n

/-- The text of `digits * 10 ^ power` without an exponent. -/
def positional (digits : Nat) (power : Int) : String :=
  let written := natDigits digits
  if 0 ≤ power then String.ofList (written ++ List.replicate power.toNat '0')
  else
    let places := (-power).toNat
    let padded := List.replicate (places + 1 - written.length) '0' ++ written
    let whole := padded.length - places
    String.ofList (padded.take whole ++ '.' :: padded.drop whole)

/-- The text of a binary value: the shortest digits that read back, `-0` for the
negative zero, and names for what is no number. -/
def Binary.text {f : Format} : Binary f → String
  | .nan => "NaN"
  | .infinite negative => if negative then "-inf" else "inf"
  | .finite negative mantissa exponent =>
    let sign := if negative then "-" else ""
    if mantissa = 0 then sign ++ "0"
    else
      let (digits, power) := shortest f mantissa exponent
      sign ++ positional digits power

end Galley.Decimal
