/-
`OutputFormat.lean` -- what a document can be rendered to.

There are two binary formats, which only the typesetter produces, and the source text
itself, which never reaches it. A name is accepted in any ASCII case, and the source
has four of them.
-/
set_option autoImplicit false

namespace Galley

/-- A text that names no output format. -/
structure UnknownFormat where
  name : String
  deriving DecidableEq, Repr

/-- The text of the error. -/
def UnknownFormat.message (e : UnknownFormat) : String :=
  "Unknown output format: " ++ e.name

/-! ## Binary formats -/

/-- A format that the typesetter produces. -/
inductive BinaryFormat where
  | pdf
  | dvi
  deriving DecidableEq, Repr, Inhabited

namespace BinaryFormat

/-- The name of the format, which is also its file extension and the typesetter's
selector. -/
def name : BinaryFormat → String
  | .pdf => "pdf"
  | .dvi => "dvi"

/-- The media type of the format. -/
def contentType : BinaryFormat → String
  | .pdf => "application/pdf"
  | .dvi => "application/dvi"

/-- The format of a name in any case. -/
def ofName (name : String) : Except UnknownFormat BinaryFormat :=
  match name.map Char.toLower with
  | "pdf" => .ok .pdf
  | "dvi" => .ok .dvi
  | _ => .error ⟨name⟩

end BinaryFormat

/-! ## All formats -/

/-- A render target. -/
inductive OutputFormat where
  | source
  | pdf
  | dvi
  deriving DecidableEq, Repr, Inhabited

namespace OutputFormat

/-- The file extension of the format, which also stands for it in text. -/
def extension : OutputFormat → String
  | .source => "tex"
  | .pdf => "pdf"
  | .dvi => "dvi"

/-- The media type of the format. -/
def contentType : OutputFormat → String
  | .source => "text/plain"
  | .pdf => BinaryFormat.contentType .pdf
  | .dvi => BinaryFormat.contentType .dvi

/-- The binary format to ask the typesetter for; the source needs none. -/
def binary? : OutputFormat → Option BinaryFormat
  | .source => none
  | .pdf => some .pdf
  | .dvi => some .dvi

/-- A binary format as a render target. -/
def ofBinary : BinaryFormat → OutputFormat
  | .pdf => .pdf
  | .dvi => .dvi

/-- The format of a name in any case. -/
def ofName (name : String) : Except UnknownFormat OutputFormat :=
  match name.map Char.toLower with
  | "tex" | "ltx" | "latex" | "source" => .ok .source
  | "pdf" => .ok .pdf
  | "dvi" => .ok .dvi
  | _ => .error ⟨name⟩

end OutputFormat

end Galley
