/-
`Press/Rendering.lean` -- a document meets a typesetter.

A binary rendering takes a snapshot, hands it over and settles the state of the
document: rendered when the typesetter answered with a stream, and failed when it
answered with an error or the rendering was given up. Reading the stream comes after
that and does not touch the document. A rendering to source text meets no typesetter.
-/
import Galley.Document.Operation
import Galley.Press.Artifact
import Galley.Press.Error
import Galley.Text.Utf8
import Galley.Typesetter.Basic

set_option autoImplicit false

namespace Galley

/-- How a rendering ends for its caller. -/
inductive Verdict (α : Type) where
  | delivered (value : α)
  | failed (cause : PressError)
  /-- The typesetter did not answer, and the rendering was given up. -/
  | abandoned
  deriving DecidableEq, Repr

/-- Goes on with what was delivered. -/
def Verdict.bind {α β : Type} (verdict : Verdict α) (next : α → Verdict β) : Verdict β :=
  match verdict with
  | .delivered value => next value
  | .failed cause => .failed cause
  | .abandoned => .abandoned

/-- A stream read to its end. -/
def ByteStream.collect (s : ByteStream) : Verdict (List UInt8) :=
  match s.readAll with
  | .ok bytes => .delivered bytes
  | .error text => .failed (.io text)

namespace Document

variable {σ : Type}

/-- The document with the rendering state settled. -/
def settle (d : Document) (success : Bool) : Document :=
  ((completeRender success).on d).2

/-- Hands the source text to a typesetter. The answer is the stream as it comes. -/
def toBinary (typesetter : Typesetter σ) (format : BinaryFormat) (d : Document) (s : σ) :
    Verdict ByteStream × Document × σ :=
  let (snapshot, rendering) := startRender.on d
  let source := match snapshot with
    | .ok source => source
    | .error _ => d.source
  match typesetter.run ⟨source, format⟩ s with
  | (.stream output, s) => (.delivered output, rendering.settle true, s)
  | (.refused cause, s) => (.failed (.compilation cause), rendering.settle false, s)
  | (.stalled, s) => (.abandoned, rendering.settle false, s)

/-- A binary rendering, read to its end. -/
def materialize (typesetter : Typesetter σ) (format : BinaryFormat) (d : Document) (s : σ) :
    Verdict Artifact × Document × σ :=
  let (verdict, after) := d.toBinary typesetter format s
  let artifact := (verdict.bind ByteStream.collect).bind fun bytes =>
    .delivered ⟨.ofBinary format, bytes⟩
  (artifact, after)

/-- A rendering to any format. -/
def render (typesetter : Typesetter σ) (format : OutputFormat) (d : Document) (s : σ) :
    Verdict Artifact × Document × σ :=
  match format.binary? with
  | some binary => d.materialize typesetter binary s
  | none => (.delivered ⟨.source, Text.Utf8.encode d.source⟩, d, s)

/-- A rendering to PDF, for a text channel. -/
def renderForText (typesetter : Typesetter σ) (d : Document) (s : σ) :
    Verdict Artifact × Document × σ :=
  d.materialize typesetter .pdf s

end Document

end Galley
