/-
`Revision/Styler.lean` -- marked spans of text.

A styler looks up the colours and styles that the flags select and sets the text in
them. It fails at the first name that is missing, in the order in which the span needs
them: colours, styles from the inside out, and last the colour of ordinary text.
-/
import Galley.Document.Error
import Galley.Registry.Entry
import Galley.Revision.Preset
import Galley.Text.Cleaning

set_option autoImplicit false

namespace Galley

/-- The colours and styles that spans are marked with. -/
structure Styler where
  colours : ColourRegistry
  styles : StyleRegistry

namespace Styler

/-- The switch to a registered colour. -/
def colourSwitch (s : Styler) (name : String) : Except Registry.Error Fragment := do
  let entry ← s.colours.get name
  pure entry.switch

/-- A text set in a registered style. -/
def decorate (s : Styler) (text name : String) : Except Registry.Error Fragment := do
  let entry ← s.styles.get name
  pure (entry.apply text)

/-- The text that is marked, cleaned if the flags say so. -/
def content (text : String) (flags : StyleFlags) : String :=
  if flags.clean then Text.clean text else text

/-- A marked span, with a registry error if a name is missing. -/
def span (s : Styler) (text : String) (flags : StyleFlags) : Except Registry.Error Fragment := do
  let switches ← flags.colours.mapM s.colourSwitch
  let decorated ← flags.decorations.foldlM s.decorate (content text flags)
  let back ← s.colourSwitch BuiltIn.textColour
  pure (String.join switches ++ decorated ++ back)

/-- A marked span. -/
def style (s : Styler) (text : String) (flags : StyleFlags) : Except DocumentError Fragment :=
  (s.span text flags).mapError DocumentError.ofRegistry

/-- A version of a history by its index. -/
def version (history : List String) (index : Nat) : Except DocumentError String :=
  match history[index]? with
  | some text => .ok text
  | none => .error (.validation (.revisionIndex index history.length))

/-- Marks version `n` of a history; a paired preset puts the prior version `m`, which is
the first one if none is given, in front of it. -/
def applyPreset (s : Styler) (preset : RevisionPreset) (history : List String) (n : Nat)
    (m : Option Nat) : Except DocumentError Fragment := do
  let current ← version history n
  if preset.isPaired then
    let prior ← version history (m.getD 0)
    let removed ← s.style prior preset.priorFlags
    let added ← s.style current preset.flags
    pure (removed ++ added)
  else s.style current preset.flags

end Styler

end Galley
