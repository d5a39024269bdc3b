/-
`Press/Session.lean` -- documents that share one typesetter.

A session hands out documents with the same options. A request goes to one document by
its number; it can change that document and the state of the typesetter, and nothing
else. A configuration is what a session is started from: with the engine of its
settings, which are then checked, or with any other typesetter.
-/
import Galley.Press.Config
import Galley.Press.Rendering

set_option autoImplicit false

namespace Galley

/-- Documents that share a typesetter with states in `σ`. -/
structure Session (σ : Type) where
  options : DocumentOptions
  typesetter : Typesetter σ
  state : σ
  documents : List Document := []

namespace Session

variable {σ : Type}

/-- A session without documents, if documents can start with its options. -/
def start (options : DocumentOptions) (typesetter : Typesetter σ) (state : σ) :
    Except PressError (Session σ) := do
  discard ((Document.new options).mapError PressError.document)
  pure { options, typesetter, state }

/-- Adds a document; its number is answered. -/
def newDocument (s : Session σ) : Except PressError (Nat × Session σ) := do
  let d ← (Document.new s.options).mapError PressError.document
  pure (s.documents.length, { s with documents := s.documents ++ [d] })

/-- What a document can be asked for in a session. -/
inductive Request where
  | edit (operation : Operation)
  | render (format : OutputFormat)
  | renderForText
  | toBinary (format : BinaryFormat)

/-- What a request answers. -/
inductive Reply where
  | edited (result : Except DocumentError Answer)
  | artifact (verdict : Verdict Artifact)
  | bytes (verdict : Verdict (List UInt8))

/-- What a request does to its document and to the state of the typesetter. -/
def serve (typesetter : Typesetter σ) (request : Request) (d : Document) (state : σ) :
    Reply × Document × σ :=
  match request with
  | .edit operation =>
    let (result, d) := operation.run.on d
    (.edited result, d, state)
  | .render format =>
    let (verdict, after) := d.render typesetter format state
    (.artifact verdict, after)
  | .renderForText =>
    let (verdict, after) := d.renderForText typesetter state
    (.artifact verdict, after)
  | .toBinary format =>
    let (verdict, after) := d.toBinary typesetter format state
    (.bytes (verdict.bind ByteStream.collect), after)

/-- Sends a request to a document. There is no reply if there is no such document. -/
def request (s : Session σ) (number : Nat) (r : Request) : Option (Reply × Session σ) :=
  s.documents[number]?.map fun d =>
    let (reply, d, state) := serve s.typesetter r d s.state
    (reply, { s with state, documents := s.documents.set number d })

end Session

namespace PressConfig

/-- A session with any typesetter for documents of the configuration. The engine settings are
not looked at. -/
def sessionWith {σ : Type} (c : PressConfig) (typesetter : Typesetter σ) (state : σ) :
    Except PressError (Session σ) :=
  Session.start c.document typesetter state

/-- A session whose documents are typeset by the engine of the configuration. -/
def session (c : PressConfig) (host : Host) (launch : Invocation → Launch) :
    Except PressError (Session Unit) := do
  (checkEngine c.engine).mapError PressError.config
  c.sessionWith (c.engine.typesetter host launch) ()

end PressConfig

end Galley
