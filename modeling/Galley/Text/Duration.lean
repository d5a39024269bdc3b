/-
`Text/Duration.lean` -- a span of time as text.

A whole number of milliseconds is written in the largest unit that keeps the number at
least one, with a decimal fraction that has no zeros at its end; no time at all is
written in the smallest unit.
-/
set_option autoImplicit false

namespace Galley.Text

/-- Three digits of a number below 1000, without zeros at the end. -/
def thousandths (n : Nat) : String :=
  let digits := [n / 100, n / 10 % 10, n % 10]
  let kept := (digits.reverse.dropWhile (· = 0)).reverse
  String.join (kept.map toString)

/-- The text of a number of milliseconds. -/
def durationText (millis : Nat) : String :=
  if millis = 0 then "0ns"
  else if millis < 1000 then s!"{millis}ms"
  else
    let fraction := thousandths (millis % 1000)
    toString (millis / 1000) ++ (if fraction.isEmpty then "" else "." ++ fraction) ++ "s"

end Galley.Text
