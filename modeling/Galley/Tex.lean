/-
`Tex.lean` -- the pieces that source text is made of.

Everything the library writes is a control sequence, a brace group or plain text. The
three are built by the functions below and never spelt out elsewhere, so that a brace
is opened and closed in one place only.
-/
set_option autoImplicit false

namespace Galley

/-- One unit of source text. A document is a sequence of fragments, one per line or
block. -/
abbrev Fragment := String

namespace Tex

/-- A text in braces. -/
def group (s : String) : String := "\x7b" ++ s ++ "\x7d"

/-- A text in brackets, as an optional argument stands. -/
def bracket (s : String) : String := "[" ++ s ++ "]"

/-- A control sequence. -/
def control (name : String) : String := "\\" ++ name

/-- A control sequence with its arguments, each in braces. -/
def command (name : String) (arguments : List String) : String :=
  control name ++ String.join (arguments.map group)

end Tex

end Galley
