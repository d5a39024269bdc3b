/-
`CommandLine.lean` -- the command that renders a sample document.

Everything that the command does is a function of its arguments, of the file that it
was told to read and of what an engine leaves; only reading, starting and writing are
left to the outside.
-/
import Galley.CommandLine.Arguments
import Galley.CommandLine.Help
import Galley.Press.Rendering
import Galley.Press.Schema

set_option autoImplicit false

namespace Galley.CommandLine

/-! ## The sample -/

/-- A document that shows every construct. -/
def sample : List Operation :=
  [.beginDocument,
   .floatingHeading .right "floatRightHeading", .lineBreak,
   .floatingHeading .left "floatLeftHeading", .lineBreak,
   .subheading "subsection", .lineBreak,
   .numberedParagraph "enum" "enumerated paragraph (labelled)", .lineBreak,
   .numberedParagraph "" "enumerated paragraph (unlabelled)", .lineBreak,
   .definition "definition" "definition", .lineBreak,
   .plain "plain", .lineBreak,
   .indented "indent", .lineBreak,
   .bold "bf", .lineBreak,
   .underlined "ul", .lineBreak,
   .paragraph "par" "par", .lineBreak,
   .numberedHeading "enumHeading",
   .table ["Y", "Z"] [["Clause", "Status"], ["Scope", "Agreed"], ["Term", "Pending"]],
   .list ["first item", "second item", "third item"],
   .endDocument]

/-- Makes calls one after the other until one fails. -/
def perform (operations : List Operation) : Edit Unit :=
  operations.forM fun operation => discard operation.run

/-! ## Running -/

/-- The configuration that a request asks for, given the contents of its file. -/
def configuration (r : Request) (read : String → Except SystemFault (List UInt8)) :
    Except PressError PressConfig := do
  let config ← match r.config with
    | some path => PressConfig.ofFile path (read path)
    | none => pure {}
  pure (if r.isFinal then config.withFinal true else config)

/-- A delivered rendering. An engine always answers, so none is given up. -/
def delivered {α : Type} : Verdict α → Except PressError α
  | .delivered value => .ok value
  | .failed cause => .error cause
  | .abandoned => .error (.io "the rendering was given up")

/-- The bytes of a document for a target. -/
def bytes (target : Target) (typesetter : Typesetter Unit) (d : Document) :
    Except PressError (List UInt8) := do
  match target with
  | .tex => pure (← delivered (d.render typesetter .source ()).1).bytes
  | .pdf => pure (← delivered (d.render typesetter .pdf ()).1).bytes
  | .dvi => pure (← delivered (d.render typesetter .dvi ()).1).bytes
  | .base64 =>
    let artifact ← delivered (d.renderForText typesetter ()).1
    pure (Text.Utf8.encode artifact.toBase64)

/-- The bytes that a request asks for, where `read` reads files and `engine` is the
typesetter of some settings. -/
def run (r : Request) (read : String → Except SystemFault (List UInt8))
    (engine : EngineSettings → Typesetter Unit) : Except PressError (List UInt8) := do
  let config ← configuration r read
  config.check
  let d ← config.checkDocument
  match (perform sample).on d with
  | (.error cause, _) => .error (.document cause)
  | (.ok (), d) => bytes (r.target.getD .tex) (engine config.engine) d

/-! ## Exit codes -/

/-- The exit code of a command that stops before it renders. -/
def Stop.exitCode : Stop → UInt32
  | .help _ | .version => 0
  | .usage => 2

/-- The exit code of a command that cannot render or write. -/
def failureCode : UInt32 := 1

/-- What is written to the standard output by a command that stops. -/
def Stop.text : Stop → String
  | .help full => Help.text full
  | .version => Help.versionText
  | .usage => ""

end Galley.CommandLine
