/-
`Registry/Entry.lean` -- the three kinds of entry: colours, styles and commands.

Each is checked when it is made, so that its declaration and every use of it are
well-formed source. A colour name stands inside braces and may be any text without
blanks and special characters; style and command names become control words. The
opening and closing texts of a style and the body of a command are the caller's.
-/
import Galley.Registry.Basic

set_option autoImplicit false

namespace Galley

open Registry

/-! ## Colours -/

/-- Characters that a colour name may not contain. -/
def forbiddenInColourName : List Char :=
  ['\x7b', '\x7d', '\\', '%', '#', '$', '&', '^', '_', '~', ',', '!']

/-- A named colour. -/
structure ColourEntry where
  name : String
  value : String
  model : ColourModel
  deriving DecidableEq, Repr

namespace ColourEntry

/-- Whether a text can name a colour. -/
def isName (name : String) : Bool :=
  !name.isEmpty &&
    name.toList.all fun c => !(Text.isBlank c || forbiddenInColourName.contains c)

/-- The normal form of a value: that of a colour for the `HTML` model, and the trimmed
text for the others. -/
def normalise (model : ColourModel) (value : String) : Except ColourError String :=
  match model with
  | .html => (Colour.parseHex value).map Colour.toHtml
  | _ => .ok (Text.trim value)

/-- Makes an entry. The name is checked before the value. -/
def make (name value : String) (model : ColourModel) : Except Error ColourEntry :=
  if isName name then
    match normalise model value with
    | .ok value => .ok { name, value, model }
    | .error cause => .error (.invalidValue .colour name cause)
  else .error (.invalidName .colour name .colourName)

/-- Switches to the colour. -/
def switch (e : ColourEntry) : Fragment := Tex.command "color" [e.name]

instance : Entry ColourEntry where
  kind := .colour
  name := ColourEntry.name
  definition e := Tex.command "definecolor" [e.name, e.model.name, e.value]

end ColourEntry

/-! ## Styles -/

/-- A style, which sets its text between two others. -/
structure StyleEntry where
  name : String
  opening : String
  closing : String
  deriving DecidableEq, Repr

namespace StyleEntry

/-- Makes an entry. -/
def make (name opening closing : String) : Except Error StyleEntry := do
  checkControlWord .style name
  pure { name, opening, closing }

/-- The control sequence that the style defines. -/
def controlSequence (e : StyleEntry) : String := Tex.control ("style" ++ e.name)

/-- A text set in the style. -/
def apply (e : StyleEntry) (text : String) : Fragment :=
  e.controlSequence ++ Tex.group text

instance : Entry StyleEntry where
  kind := .style
  name := StyleEntry.name
  definition e :=
    Tex.control "def" ++ e.controlSequence ++ "#1" ++ Tex.group (e.opening ++ "#1" ++ e.closing)

end StyleEntry

/-! ## Commands -/

/-- A command with up to nine parameters. -/
structure CommandEntry where
  name : String
  arity : Nat
  body : String
  deriving DecidableEq, Repr

namespace CommandEntry

/-- The most parameters that a command can have. -/
def maxArity : Nat := 9

/-- Makes an entry. The name is checked before the number of parameters. -/
def make (name : String) (arity : Nat) (body : String) : Except Error CommandEntry := do
  checkControlWord .command name
  if maxArity < arity then throw (.tooManyParameters name arity)
  pure { name, arity, body }

/-- The parameters as they stand in a definition. -/
def parameters (arity : Nat) : String :=
  String.join ((List.range arity).map fun i => "#" ++ toString (i + 1))

/-- A call. Without arguments an empty group ends the control word, so that it does not
swallow what follows. -/
def call (e : CommandEntry) (arguments : List String) : Except Error Fragment :=
  if arguments.length = e.arity then
    .ok (if arguments.isEmpty then Tex.command e.name [""] else Tex.command e.name arguments)
  else .error (.argumentCount e.name e.arity arguments.length)

instance : Entry CommandEntry where
  kind := .command
  name := CommandEntry.name
  definition e :=
    Tex.control "def" ++ Tex.control e.name ++ parameters e.arity ++ Tex.group e.body

end CommandEntry

/-! ## Registries -/

/-- The colours of a document. -/
abbrev ColourRegistry := Registry ColourEntry

/-- The styles of a document. -/
abbrev StyleRegistry := Registry StyleEntry

/-- The commands of a document. -/
abbrev CommandRegistry := Registry CommandEntry

end Galley
