/-
`Text/Lines.lean` -- how a log is cut into lines.

A line ends at a line feed, and a carriage return right before that feed belongs to
the ending. What follows the last line feed is one more line, if there is anything;
a carriage return at its end is text. The rule looks at two symbols only, so it is
written once for any type of symbol: a log can be cut before or after its bytes are
decoded.
-/
set_option autoImplicit false

namespace Galley.Text

variable {α : Type} [DecidableEq α]

/-- A line, latest symbol first, without the carriage return that ends it. -/
def dropReturn (carriageReturn : α) : List α → List α
  | [] => []
  | c :: line => if c = carriageReturn then line else c :: line

/-- The lines of a list of symbols, where `line` holds what is already read of the
first one, latest symbol first. -/
def linesFrom (lineFeed carriageReturn : α) (line : List α) : List α → List (List α)
  | [] => if line.isEmpty then [] else [line.reverse]
  | c :: rest =>
    if c = lineFeed then
      (dropReturn carriageReturn line).reverse :: linesFrom lineFeed carriageReturn [] rest
    else
      linesFrom lineFeed carriageReturn (c :: line) rest

/-- The lines of a list of symbols. -/
def linesBy (lineFeed carriageReturn : α) (symbols : List α) : List (List α) :=
  linesFrom lineFeed carriageReturn [] symbols

/-- The lines of a text. -/
def lines (s : String) : List String :=
  (linesBy '\n' '\r' s.toList).map String.ofList

/-- The lines of a run of bytes, before anything is decoded. -/
def byteLines (bytes : List UInt8) : List (List UInt8) :=
  linesBy 0x0A 0x0D bytes

end Galley.Text
