/-
`Revision/Preset.lean` -- ready-made markings for versions of a text.

A preset marks one version as added, removed or unchanged, or sets a changed version
after the one it replaces. The current side of a change is always cleaned, and the
prior side only by the cleaning preset.
-/
import Galley.Revision.Flags

set_option autoImplicit false

namespace Galley

/-! ## Comparing two versions -/

/-- How two texts relate. -/
inductive Comparison where
  /-- The texts are the same. -/
  | same
  /-- Only the second text has content. -/
  | secondOnly
  /-- Only the first text has content. -/
  | firstOnly
  /-- Both have content and differ. -/
  | different
  deriving DecidableEq, Repr

namespace Comparison

/-- The word for a relation. -/
def word : Comparison → String
  | .same => "eq"
  | .secondOnly => "one"
  | .firstOnly => "two"
  | .different => "neq"

/-- Compares two texts; two empty ones are the same. -/
def of (a b : String) : Comparison :=
  if a = b then .same
  else if a.isEmpty then .secondOnly
  else if b.isEmpty then .firstOnly
  else .different

end Comparison

/-! ## Presets -/

/-- A ready-made marking. -/
inductive RevisionPreset where
  | new
  | old
  | eq
  | neq
  | newClean
  | oldClean
  | eqClean
  | neqClean
  deriving DecidableEq, Repr, Inhabited

/-- A text that names no preset. -/
structure UnknownPreset where
  name : String
  deriving DecidableEq, Repr

/-- The text of the error. -/
def UnknownPreset.message (e : UnknownPreset) : String :=
  "Unknown revision preset '" ++ e.name ++ "'"

namespace RevisionPreset

/-- All presets. -/
def all : List RevisionPreset :=
  [.new, .old, .eq, .neq, .newClean, .oldClean, .eqClean, .neqClean]

/-- The name of a preset. -/
def name : RevisionPreset → String
  | .new => "new"
  | .old => "old"
  | .eq => "eq"
  | .neq => "neq"
  | .newClean => "newClean"
  | .oldClean => "oldClean"
  | .eqClean => "eqClean"
  | .neqClean => "neqClean"

/-- The preset of a name. -/
def ofName (name : String) : Except UnknownPreset RevisionPreset :=
  match all.find? fun preset => preset.name = name with
  | some preset => .ok preset
  | none => .error ⟨name⟩

/-- Whether the preset marks two versions. -/
def isPaired : RevisionPreset → Bool
  | .neq | .neqClean => true
  | _ => false

/-- How the version, or the current one of two, is marked. -/
def flags : RevisionPreset → StyleFlags
  | .new => { new := true, underline := true }
  | .newClean => { new := true, underline := true, clean := true }
  | .old => { old := true, strikeout := true }
  | .oldClean => { old := true, strikeout := true, clean := true }
  | .eq => { eq := true }
  | .eqClean => { eq := true, clean := true }
  | .neq | .neqClean => { new := true, underline := true, clean := true }

/-- How the prior one of two versions is marked. -/
def priorFlags (preset : RevisionPreset) : StyleFlags :=
  { old := true, strikeout := true, clean := preset == .neqClean }

end RevisionPreset

end Galley
