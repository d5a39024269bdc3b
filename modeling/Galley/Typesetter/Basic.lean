/-
`Typesetter/Basic.lean` -- what a typesetter is to a document.

A typesetter is handed a source text and a format and answers with a stream, with an
error or not at all. It may have a state of its own, which is all that two jobs can
share. The canned typesetter answers from prepared responses and keeps a list of its
jobs; the scripted one goes through a queue of outcomes first.
-/
import Galley.Typesetter.ByteStream
import Galley.Typesetter.Error

set_option autoImplicit false

namespace Galley

/-- What a typesetter is asked for. -/
structure Job where
  source : String
  format : BinaryFormat
  deriving DecidableEq, Repr

/-- What a typesetter answers. -/
inductive Outcome where
  | stream (output : ByteStream)
  | refused (cause : CompileError)
  /-- No answer comes. -/
  | stalled
  deriving DecidableEq, Repr

/-- A typesetter with states in `σ`. -/
structure Typesetter (σ : Type) where
  name : String
  run : Job → σ → Outcome × σ

/-! ## Canned responses -/

/-- A prepared response. -/
abbrev Response := Except CompileError (List UInt8)

/-- Prepared responses by format, latest first, and the jobs so far in order. -/
structure Canned where
  responses : List (BinaryFormat × Response) := []
  received : List Job := []

namespace Canned

/-- Answers jobs of a format with bytes from now on. -/
def respond (c : Canned) (format : BinaryFormat) (bytes : List UInt8) : Canned :=
  { c with responses := (format, .ok bytes) :: c.responses }

/-- Fails jobs of a format with diagnostics from now on. -/
def fail (c : Canned) (format : BinaryFormat) (diagnostics : String) : Canned :=
  { c with responses := (format, .error (.failed "exit status: 1" diagnostics)) :: c.responses }

/-- The response to jobs of a format; without one there is no artifact. -/
def response (c : Canned) (format : BinaryFormat) : Response :=
  match c.responses.find? fun entry => entry.1 = format with
  | some (_, response) => response
  | none => .error (.missingArtifact format)

/-- Answers a job and records it. -/
def answer (job : Job) (c : Canned) : Outcome × Canned :=
  let outcome := match c.response job.format with
    | .ok bytes => .stream (.ofBytes bytes)
    | .error cause => .refused cause
  (outcome, { c with received := c.received ++ [job] })

/-- The typesetter of canned responses. -/
def typesetter : Typesetter Canned := ⟨"InMemoryCompiler", answer⟩

end Canned

/-! ## Scripts -/

/-- Outcomes to go through, canned responses for what comes after, and all jobs so far
in order. -/
structure Script where
  queue : List Outcome := []
  canned : Canned := {}
  jobs : List Job := []

namespace Script

/-- Answers a job with the next outcome of the queue, or with a canned response. -/
def answer (job : Job) (s : Script) : Outcome × Script :=
  let jobs := s.jobs ++ [job]
  match s.queue with
  | outcome :: queue => (outcome, { s with queue, jobs })
  | [] =>
    let (outcome, canned) := s.canned.answer job
    (outcome, { s with canned, jobs })

/-- The typesetter of a script. -/
def typesetter : Typesetter Script := ⟨"Script", answer⟩

end Script

end Galley
