/-
`Decimal/Binary.lean` -- binary floating-point values in exact arithmetic.

The scale of a watermark is a 32-bit binary number, and a 64-bit one can be pushed as
text. Both are kept here as an integer times a power of two, so that every rounding is
a division of natural numbers that a proof can see into. One function rounds a
quotient to a format; reading a decimal, narrowing and scaling are all uses of it.
-/
set_option autoImplicit false

namespace Galley.Decimal

/-! ## Formats and values -/

/-- A binary format: the number of significant bits, and the exponents of the last
bit of the smallest and of the largest values. -/
structure Format where
  precision : Nat
  minExponent : Int
  maxExponent : Int
  deriving DecidableEq, Repr

/-- The 32-bit format. -/
def single : Format := ⟨24, -149, 104⟩

/-- The 64-bit format. -/
def double : Format := ⟨53, -1074, 971⟩

/-- A value of a binary format. A finite one is `mantissa * 2 ^ exponent`; the mantissa
has all the bits that the format allows unless the exponent is already the least. -/
inductive Binary (f : Format) where
  | nan
  | infinite (negative : Bool)
  | finite (negative : Bool) (mantissa : Nat) (exponent : Int)
  deriving DecidableEq, Repr

namespace Binary

variable {f : Format}

/-- Zero, with a sign. -/
def zero (negative : Bool) : Binary f := .finite negative 0 f.minExponent

/-- Whether the value is a number and not an infinity. -/
def isFinite : Binary f → Bool
  | .finite .. => true
  | _ => false

/-- The value with the other sign. -/
def neg : Binary f → Binary f
  | .nan => .nan
  | .infinite negative => .infinite (!negative)
  | .finite negative mantissa exponent => .finite (!negative) mantissa exponent

/-- Equality of numbers: the zeros are equal and a NaN equals nothing. -/
def numEq : Binary f → Binary f → Bool
  | .infinite a, .infinite b => a == b
  | .finite a m e, .finite b n d => m == n && e == d && (a == b || m == 0)
  | _, _ => false

/-! ## Rounding -/

/-- The quotient to the nearest integer, a half going to the even neighbour. -/
def roundQuotient (num den : Nat) : Nat :=
  let q := num / den
  let r := num % den
  if 2 * r < den then q
  else if den < 2 * r then q + 1
  else if q % 2 = 0 then q
  else q + 1

/-- The two terms of the fraction `num / den * 2 ^ power`. -/
def scaleTerms (num den : Nat) (power : Int) : Nat × Nat :=
  (num * Nat.pow 2 power.toNat, den * Nat.pow 2 (-power).toNat)

/-- The largest `k` with `2 ^ k ≤ num / den`, for positive terms. -/
def floorLog2 (num den : Nat) : Int :=
  let k : Int := (num.log2 : Int) - (den.log2 : Int)
  let terms := scaleTerms num den (-k)
  if terms.1 < terms.2 then k - 1 else k

/-- The value of the format nearest to `num / den`, a half going to the even mantissa. -/
def ofRatio (negative : Bool) (num den : Nat) : Binary f :=
  if num = 0 then zero negative
  else
    let exponent := max f.minExponent (floorLog2 num den - (f.precision : Int) + 1)
    let terms := scaleTerms num den (-exponent)
    let mantissa := roundQuotient terms.1 terms.2
    let (mantissa, exponent) :=
      if mantissa = Nat.pow 2 f.precision then (Nat.pow 2 (f.precision - 1), exponent + 1)
      else (mantissa, exponent)
    if f.maxExponent < exponent then .infinite negative
    else .finite negative mantissa exponent

/-- The value of the format nearest to `num / den * 2 ^ power`. -/
def ofScaledRatio (negative : Bool) (num den : Nat) (power : Int) : Binary f :=
  let terms := scaleTerms num den power
  ofRatio negative terms.1 terms.2

/-- The value of the format nearest to an integer. -/
def ofNat (negative : Bool) (n : Nat) : Binary f :=
  ofRatio negative n 1

/-- A value rounded to another format. -/
def convert (g : Format) : Binary f → Binary g
  | .nan => .nan
  | .infinite negative => .infinite negative
  | .finite negative mantissa exponent => ofScaledRatio negative mantissa 1 exponent

/-- The rounded product of two finite values of one sign; anything else is no number. -/
def mul : Binary f → Binary f → Binary f
  | .finite a m e, .finite b n d => ofScaledRatio (a != b) (m * n) 1 (e + d)
  | _, _ => .nan

/-- The rounded quotient of two finite values; anything else is no number. -/
def div : Binary f → Binary f → Binary f
  | .finite a m e, .finite b n d =>
    if n = 0 then .nan else ofScaledRatio (a != b) m n (e - d)
  | _, _ => .nan

/-- The value of the format nearest to `digits * 10 ^ exponent`. Beyond the two guards
the answer is an infinity or zero in both formats, so no huge power is built. -/
def ofDecimal (negative : Bool) (digits : Nat) (exponent : Int) : Binary f :=
  if digits = 0 then zero negative
  else if 400 < exponent then .infinite negative
  else if exponent + (digits.log2 : Int) + 1 < -400 then zero negative
  else ofRatio negative (digits * Nat.pow 10 exponent.toNat) (Nat.pow 10 (-exponent).toNat)

end Binary

end Galley.Decimal
