/-
`Revision/Flags.lean` -- how a span of text is marked.

A span can be coloured, cleaned and decorated. The flags say which of these apply; the
order in which they apply is fixed here and not chosen by the caller.
-/
set_option autoImplicit false

namespace Galley

/-! ## Built-in names -/

namespace BuiltIn

/-- The colour of ordinary text, to which every marked span returns. -/
def textColour : String := "text"

/-- The colour of added text. -/
def newColour : String := "new"

/-- The colour of removed text. -/
def oldColour : String := "old"

/-- The colour of unchanged text. -/
def equalColour : String := "eq"

/-- The colour of changed text. -/
def unequalColour : String := "neq"

/-- The bold style. -/
def bold : String := "bf"

/-- The italic style. -/
def italic : String := "it"

/-- The underlining style. -/
def underline : String := "ul"

/-- The striking-out style. -/
def strikeout : String := "st"

end BuiltIn

/-! ## Flags -/

/-- What applies to a span. -/
structure StyleFlags where
  new : Bool := false
  old : Bool := false
  eq : Bool := false
  neq : Bool := false
  /-- The text is cleaned. -/
  clean : Bool := false
  strikeout : Bool := false
  bold : Bool := false
  italic : Bool := false
  underline : Bool := false
  deriving DecidableEq, Repr, Inhabited

namespace StyleFlags

/-- The names of those pairs whose flag is set. -/
def selected (choices : List (Bool × String)) : List String :=
  choices.filterMap fun choice => if choice.1 then some choice.2 else none

/-- The colours of the span, in the order in which they are switched to. -/
def colours (f : StyleFlags) : List String :=
  selected [(f.new, BuiltIn.newColour), (f.old, BuiltIn.oldColour), (f.eq, BuiltIn.equalColour),
    (f.neq, BuiltIn.unequalColour)]

/-- The styles of the span, innermost first. -/
def decorations (f : StyleFlags) : List String :=
  selected [(f.strikeout, BuiltIn.strikeout), (f.bold, BuiltIn.bold), (f.italic, BuiltIn.italic),
    (f.underline, BuiltIn.underline)]

end StyleFlags

end Galley
