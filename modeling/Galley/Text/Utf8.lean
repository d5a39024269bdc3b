/-
`Text/Utf8.lean` -- UTF-8, with a place for what is not UTF-8.

A typesetting run leaves logs whose multi-byte characters may be cut in two, so the
decoder must go on after a fault. It is a machine that reads one byte at a time and
knows which continuation bytes it still waits for. A byte outside the awaited range
closes the sequence that had begun as *one* fault and is then read afresh; that is
what "one replacement per maximal invalid part" means. The same machine decides
whether bytes are UTF-8 at all: they are if it meets no fault.
-/
set_option autoImplicit false

namespace Galley.Text.Utf8

/-! ## The machine -/

/-- What the decoder waits for. -/
inductive State where
  /-- Between two characters. -/
  | ready
  /-- Inside a character: `missing` bytes are to come, the next one between `low` and
  `high`; `value` is the code point read so far. -/
  | within (missing : Nat) (low high : UInt8) (value : Nat)
  deriving DecidableEq, Repr

/-- Reads a byte that starts a character. The ranges of the second byte leave out
overlong forms, surrogates and what lies above the last code point. -/
def begin (b : UInt8) : List (Option Char) × State :=
  if b < 0x80 then ([some (Char.ofNat b.toNat)], .ready)
  else if b < 0xC2 then ([none], .ready)
  else if b < 0xE0 then ([], .within 1 0x80 0xBF (b.toNat - 0xC0))
  else if b = 0xE0 then ([], .within 2 0xA0 0xBF 0x0)
  else if b = 0xED then ([], .within 2 0x80 0x9F 0xD)
  else if b < 0xF0 then ([], .within 2 0x80 0xBF (b.toNat - 0xE0))
  else if b = 0xF0 then ([], .within 3 0x90 0xBF 0x0)
  else if b < 0xF4 then ([], .within 3 0x80 0xBF (b.toNat - 0xF0))
  else if b = 0xF4 then ([], .within 3 0x80 0x8F 0x4)
  else ([none], .ready)

/-- Reads one byte: the characters and faults (`none`) that it completes, and the
state after it. -/
def step : State → UInt8 → List (Option Char) × State
  | .ready, b => begin b
  | .within missing low high value, b =>
    if low ≤ b && b ≤ high then
      let value := value * 64 + (b.toNat - 0x80)
      if missing ≤ 1 then ([some (Char.ofNat value)], .ready)
      else ([], .within (missing - 1) 0x80 0xBF value)
    else
      let (out, next) := begin b
      (none :: out, next)

/-- Bytes that end inside a character leave one fault. -/
def State.finish : State → List (Option Char)
  | .ready => []
  | .within .. => [none]

/-! ## Decoding and encoding -/

/-- A run of the machine: its state and what it has read, latest first. -/
structure Scan where
  state : State := .ready
  done : List (Option Char) := []

/-- The run after one more byte. -/
def Scan.absorb (scan : Scan) (b : UInt8) : Scan :=
  let (out, next) := step scan.state b
  { state := next, done := out.reverse ++ scan.done }

/-- The characters of a run of bytes, with `none` for each maximal invalid part. -/
def scan (bytes : List UInt8) : List (Option Char) :=
  let last := bytes.foldl Scan.absorb {}
  (last.state.finish ++ last.done).reverse

/-- The character that stands for an invalid part. -/
def replacement : Char := Char.ofNat 0xFFFD

/-- The text of a run of bytes, with a replacement character per maximal invalid
part. -/
def decodeLossy (bytes : List UInt8) : String :=
  String.ofList ((scan bytes).map fun c => c.getD replacement)

/-- The text of a run of bytes, if all of it is UTF-8. -/
def decode? (bytes : List UInt8) : Option String :=
  let chars := scan bytes
  if chars.all Option.isSome then some (String.ofList (chars.filterMap id)) else none

/-- The UTF-8 bytes of a text. -/
def encode (s : String) : List UInt8 :=
  s.toList.flatMap String.utf8EncodeChar

end Galley.Text.Utf8
