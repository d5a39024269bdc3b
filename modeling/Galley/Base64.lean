/-
`Base64.lean` -- bytes as text in the standard base64 alphabet, with padding.

Three bytes become four digits of six bits; a group of one or two bytes at the end
is filled with zero bits and padded with `=` to four characters. `decode?` reads
canonical text back: it is the other half of the statement that nothing is lost on
the way into a text channel.
-/
set_option autoImplicit false

namespace Galley.Base64

/-! ## Digits -/

/-- The 64 digits in the order of their values. -/
def alphabet : List Char :=
  "ABCDEFGHIJKLMNOPQRSTUVWXYZabcdefghijklmnopqrstuvwxyz0123456789+/".toList

/-- The digits as an array, for look-up by value. -/
def digits : Array Char := alphabet.toArray

/-- The digit of a value below 64. -/
def digit (value : Nat) : Char := digits.getD value 'A'

/-- The value of a digit, if it is one. -/
def value? (c : Char) : Option Nat :=
  let position := alphabet.idxOf c
  if position < 64 then some position else none

/-! ## Encoding -/

/-- The four digits of a whole group. -/
def wholeGroup (a b c : UInt8) : List Char :=
  let n := a.toNat * 65536 + b.toNat * 256 + c.toNat
  [digit (n / 262144), digit (n / 4096 % 64), digit (n / 64 % 64), digit (n % 64)]

/-- The padded digits of a last group of two bytes. -/
def pairGroup (a b : UInt8) : List Char :=
  let n := a.toNat * 256 + b.toNat
  [digit (n / 1024), digit (n / 16 % 64), digit (n % 16 * 4), '=']

/-- The padded digits of a last group of one byte. -/
def singleGroup (a : UInt8) : List Char :=
  [digit (a.toNat / 4), digit (a.toNat % 4 * 16), '=', '=']

/-- The digits of the bytes after those in `done`, which holds its digits latest
first. -/
def encodeOnto (done : List Char) : List UInt8 → List Char
  | [] => done.reverse
  | [a] => ((singleGroup a).reverse ++ done).reverse
  | [a, b] => ((pairGroup a b).reverse ++ done).reverse
  | a :: b :: c :: rest => encodeOnto ((wholeGroup a b c).reverse ++ done) rest

/-- The base64 text of a run of bytes. -/
def encode (bytes : List UInt8) : String :=
  String.ofList (encodeOnto [] bytes)

/-! ## Decoding -/

/-- The bytes of base64 digits: groups of four, padding in the last one only. -/
def decodeDigits : List Char → Option (List UInt8)
  | [] => some []
  | [p, q, '=', '='] => do
    let p ← value? p
    let q ← value? q
    guard (q % 16 = 0)
    pure [UInt8.ofNat (p * 4 + q / 16)]
  | [p, q, r, '='] => do
    let p ← value? p
    let q ← value? q
    let r ← value? r
    guard (r % 4 = 0)
    pure [UInt8.ofNat (p * 4 + q / 16), UInt8.ofNat (q % 16 * 16 + r / 4)]
  | p :: q :: r :: s :: rest => do
    let p ← value? p
    let q ← value? q
    let r ← value? r
    let s ← value? s
    let tail ← decodeDigits rest
    pure (UInt8.ofNat (p * 4 + q / 16) :: UInt8.ofNat (q % 16 * 16 + r / 4)
      :: UInt8.ofNat (r % 4 * 64 + s) :: tail)
  | _ => none

/-- The bytes of a base64 text, if it is one. -/
def decode? (text : String) : Option (List UInt8) :=
  decodeDigits text.toList

end Galley.Base64
