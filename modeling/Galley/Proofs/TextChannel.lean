/-
`Proofs/TextChannel.lean` -- a channel that carries only text loses nothing.

A rendering for a text channel is the rendering to PDF: the same answer, the same state
after it, the same job for the typesetter. What goes through the channel is its base64
text, which is ASCII, so the bytes that are written are UTF-8 and are read back as that
text, and the text is decoded to the bytes of the PDF. The command writes the one or the
other, and everything that it does before is the same for both.
-/
import Galley.CommandLine
import Galley.Proofs.Base64
import Galley.Proofs.LossyUtf8
import Galley.Proofs.Transparency

set_option autoImplicit false

namespace Galley

/-! ## Base64 text as bytes -/

namespace Base64

theorem encode_ascii (bytes : List UInt8) : ∀ c ∈ (encode bytes).toList, c.toNat < 0x80 := by
  intro c hc
  rw [toList_encode, spelling, List.mem_append] at hc
  rcases hc with hdigit | hmark
  · obtain ⟨v, hv, rfl⟩ := List.mem_map.mp hdigit
    exact digit_ascii v (values_lt bytes v hv)
  · rw [List.eq_of_mem_replicate hmark]
    decide

/-- The bytes that a text in a file stands for. -/
def decodeFile? (written : List UInt8) : Option (List UInt8) :=
  (Text.Utf8.decode? written).bind decode?

theorem decodeFile?_encode (bytes : List UInt8) :
    decodeFile? (Text.Utf8.encode (encode bytes)) = some bytes := by
  rw [decodeFile?, Text.Utf8.decode?_encode_ascii (encode_ascii bytes), Option.bind_some,
    decode?_encode]

end Base64

/-! ## The command -/

namespace CommandLine

theorem bytes_base64 (t : Typesetter Unit) (d : Document) :
    (bytes .base64 t d).map Base64.decodeFile? = (bytes .pdf t d).map some := by
  have hrender : d.renderForText t () = d.render t .pdf () := rfl
  rw [bytes, bytes, hrender]
  cases delivered (d.render t .pdf ()).1 with
  | error cause => rfl
  | ok artifact => exact congrArg Except.ok (Base64.decodeFile?_encode artifact.bytes)

variable (r : Request) (read : String → Except SystemFault (List UInt8))
  (engine : EngineSettings → Typesetter Unit)

/-- What happens before the target is looked at is the same for every target. -/
theorem run_target (target : Target) :
    run { r with target := some target } read engine = (do
      let config ← configuration r read
      config.check
      let d ← config.checkDocument
      match (perform sample).on d with
      | (.error cause, _) => .error (.document cause)
      | (.ok (), d) => bytes target (engine config.engine) d) :=
  rfl

/-- The command fails alike for both targets, and what it writes as text stands for what
it writes as PDF. -/
theorem run_base64 :
    (run { r with target := some .base64 } read engine).map Base64.decodeFile?
      = (run { r with target := some .pdf } read engine).map some := by
  have hmap (f : List UInt8 → Option (List UInt8)) (x : Except PressError (List UInt8)) :
      x.map f = f <$> x := rfl
  simp only [run_target, hmap, map_bind]
  refine bind_congr fun config => bind_congr fun _ => bind_congr fun d => ?_
  rcases (perform sample).on d with ⟨cause | _, d⟩
  · rfl
  · exact bytes_base64 (engine config.engine) d

end CommandLine

/-! ## The two renderings -/

/-- **The text channel agrees with PDF.** From one state of a document and of any
typesetter, the rendering for a text channel and the rendering to PDF give the same
artifact or the same error, leave the same document and the same typesetter, and have sent
it one job each, the source text to be typeset to PDF. The text of an artifact is its bytes
by the rule of padded base64, four characters for every three bytes begun; it decodes to the
bytes, and nothing else decodes to them. So does the output of the command: with any other
arguments, files and engines, what it writes as base64 decodes to what it writes as PDF,
and it stops with the same error if it stops. -/
theorem text_channel_agrees_with_pdf :
    (∀ {σ : Type} (t : Typesetter σ) (d : Document) (s : σ),
      d.renderForText t s = d.render t .pdf s) ∧
    (∀ {σ : Type} (t : Typesetter σ) (d : Document) (s : σ) (received : List Job),
      (d.renderForText t.recorded (s, received)).2.2.2 = received ++ [⟨d.source, .pdf⟩] ∧
        (d.render t.recorded .pdf (s, received)).2.2.2 = received ++ [⟨d.source, .pdf⟩]) ∧
    (∀ a : Artifact, Base64.Spells a.bytes a.toBase64 ∧
      a.toBase64.length = 4 * ((a.size + 2) / 3)) ∧
    (∀ (a : Artifact) (text : String),
      Base64.decode? text = some a.bytes ↔ text = a.toBase64) ∧
    ∀ (r : CommandLine.Request) (read : String → Except SystemFault (List UInt8))
      (engine : EngineSettings → Typesetter Unit),
      (CommandLine.run { r with target := some .base64 } read engine).map Base64.decodeFile?
        = (CommandLine.run { r with target := some .pdf } read engine).map some := by
  refine ⟨fun t d s => rfl, fun t d s received => ?_, fun a => ?_, fun a text => ?_,
    CommandLine.run_base64⟩
  · have hforText := Session.recorded_rendering t .renderForText d s rfl received
    have hrender := Session.recorded_rendering t (.render .pdf) d s rfl received
    exact ⟨hforText, hrender⟩
  · exact ⟨Base64.spells_encode a.bytes, Base64.length_encode a.bytes⟩
  · exact Base64.decode?_eq_some_iff.trans Base64.spells_iff

end Galley
