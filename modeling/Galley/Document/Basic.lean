/-
`Document/Basic.lean` -- a document and how it starts.

A document is one value: its options, its buffer, the registries and counters that give
the fragments their meaning, and where it stands in rendering. An edit runs on such a
value and ends with an answer or an error, *and* with a document in either case; that
a failed edit leaves the document as it was is therefore a statement about the edits
and not built into their type. Starting over checks all that the options can get wrong
before anything is cleared.
-/
import Galley.Buffer
import Galley.Document.Preamble
import Galley.Registry.Counters
import Galley.Registry.Entry
import Galley.Revision.Flags

set_option autoImplicit false

namespace Galley

/-! ## Documents -/

/-- Where a document stands in rendering. -/
inductive RenderState where
  /-- Started, and not rendered since. -/
  | initialized
  /-- A snapshot is being typeset. -/
  | rendering
  | rendered
  /-- The last rendering failed; the content is as before. -/
  | failed
  deriving DecidableEq, Repr

/-- A document that is being assembled. -/
structure Document where
  options : DocumentOptions := {}
  buffer : Buffer := {}
  colours : ColourRegistry := {}
  styles : StyleRegistry := {}
  commands : CommandRegistry := {}
  counters : Counters := {}
  state : RenderState := .initialized
  deriving DecidableEq

/-- A computation on a document. An error does not undo what was done before it. -/
abbrev Edit (α : Type) := ExceptT DocumentError (StateM Document) α

namespace Edit

/-- The outcome of an edit and the document after it. -/
def on {α : Type} (edit : Edit α) (d : Document) : Except DocumentError α × Document :=
  Id.run (StateT.run (ExceptT.run edit) d)

/-- Goes on with the value of a check, or fails with its error. -/
def ofResult {α : Type} : Except DocumentError α → Edit α
  | .ok a => pure a
  | .error e => throw e

/-- Goes on with the value of a registry call, or fails with its error. -/
def ofRegistry {α : Type} (result : Except Registry.Error α) : Edit α :=
  ofResult (result.mapError DocumentError.ofRegistry)

/-- Goes on with the value of a check of the input, or fails with its error. -/
def ofValidation {α : Type} (result : Except ValidationError α) : Edit α :=
  ofResult (result.mapError DocumentError.validation)

/-- Puts a fragment at the end of a partition. -/
def append (p : Partition) (fragment : Fragment) : Edit Unit :=
  modify fun d => { d with buffer := d.buffer.append p fragment }

/-- Puts fragments at the end of a partition, in order. -/
def appendAll (p : Partition) (fragments : List Fragment) : Edit Unit :=
  fragments.forM (append p)

end Edit

namespace Document

/-- The source text. -/
def source (d : Document) : String := d.buffer.source

/-! ## Registrations -/

/-- Registers a colour and writes its definition. -/
def registerColour (entry : ColourEntry) : Edit Unit := do
  modify fun d => { d with colours := d.colours.insert entry }
  Edit.append .definitions (Registry.Entry.definition entry)

/-- Registers a style and writes its definition. -/
def registerStyle (entry : StyleEntry) : Edit Unit := do
  modify fun d => { d with styles := d.styles.insert entry }
  Edit.append .definitions (Registry.Entry.definition entry)

/-- Registers a command and writes its definition. -/
def registerCommand (entry : CommandEntry) : Edit Unit := do
  modify fun d => { d with commands := d.commands.insert entry }
  Edit.append .definitions (Registry.Entry.definition entry)

/-- Makes and registers a colour. -/
def addColour (name value : String) (model : ColourModel) : Edit Unit := do
  registerColour (← Edit.ofRegistry (ColourEntry.make name value model))

/-- Makes and registers a style. -/
def addStyle (name opening closing : String) : Edit Unit := do
  registerStyle (← Edit.ofRegistry (StyleEntry.make name opening closing))

/-- Makes and registers a command. -/
def addCommand (name : String) (arity : Nat) (body : String) : Edit Unit := do
  registerCommand (← Edit.ofRegistry (CommandEntry.make name arity body))

/-- Declares a counter and writes its declaration; nothing happens if it exists. -/
def addCounter (name : String) : Edit Unit := do
  let d ← get
  let (declaration, counters) ← Edit.ofRegistry (d.counters.declare name)
  set { d with counters := counters }
  match declaration with
  | some fragment => Edit.append .definitions fragment
  | none => pure ()

/-! ## Starting -/

/-- The built-in counters. -/
def builtInCounters : List String := [Counters.paragraphs, Counters.headings]

/-- The built-in styles: their names and what they set a text between. -/
def builtInStyles : List (String × String × String) :=
  [(BuiltIn.bold, "\\textbf\x7b", "\x7d"), (BuiltIn.italic, "\\emph\x7b", "\x7d"),
   (BuiltIn.underline, "\\ul\x7b", "\x7d"), (BuiltIn.strikeout, "\\st\x7b", "\x7d")]

/-- The built-in colours and their values. -/
def builtInColours : List (String × String) :=
  [(BuiltIn.textColour, "000000"), (BuiltIn.newColour, "0000AA"), (BuiltIn.oldColour, "AA0000"),
   (BuiltIn.equalColour, "5533AA"), (BuiltIn.unequalColour, "337711")]

/-- The colours of the options as entries, or the error of the first that is none. -/
def overrides (o : DocumentOptions) : Except Registry.Error (List ColourEntry) :=
  o.colours.mapM fun c => ColourEntry.make c.name c.value c.model

/-- Checks all that options can get wrong: the watermark first, shown or not, then the
colours in order. -/
def checkOptions (o : DocumentOptions) : Edit (List ColourEntry) := do
  match o.watermark with
  | some mark => Edit.ofValidation mark.check
  | none => pure ()
  Edit.ofRegistry (overrides o)

/-- Starts over with options: everything is cleared, and the preamble and the built-in
names are laid down. Nothing changes if the options are refused. -/
def init (o : DocumentOptions) : Edit Unit := do
  let entries ← checkOptions o
  modify fun d =>
    { d with buffer := {}, colours := {}, styles := {}, commands := {}, counters := {} }
  Edit.appendAll .system (Preamble.system o)
  Edit.append .definitions Preamble.listCommands
  builtInCounters.forM addCounter
  builtInStyles.forM fun (name, opening, closing) => addStyle name opening closing
  builtInColours.forM fun (name, value) => addColour name value .html
  entries.forM registerColour
  Edit.appendAll .body o.body
  modify fun d => { d with options := o, state := .initialized }

/-- Starts over with the options that the document was started with. -/
def reset : Edit Unit := do
  init (← get).options

/-- A new document. -/
def new (o : DocumentOptions) : Except DocumentError Document :=
  match (init o).on {} with
  | (.ok (), d) => .ok d
  | (.error e, _) => .error e

end Document

end Galley
