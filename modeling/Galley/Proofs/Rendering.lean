/-
`Proofs/Rendering.lean` -- what a rendering does to a document, and what it says of it.

A rendering reaches the typesetter once, with the source text as it stands, and after
that the document differs in its rendering state only. Which state that is depends on
what the typesetter answered and not on what becomes of the answer. The caller of a
whole rendering learns more: the stream still has to be read, and the reading can fail
when the state is settled already. The state and the verdict agree on every rendering
but those.
-/
import Galley.Press.Rendering
import Galley.Proofs.ByteStream
import Galley.Proofs.Registration

set_option autoImplicit false

namespace Galley

/-! ## Handing over -/

/-- How a rendering ends for the caller that takes the stream as it comes. -/
def Outcome.verdict : Outcome → Verdict ByteStream
  | .stream output => .delivered output
  | .refused cause => .failed (.compilation cause)
  | .stalled => .abandoned

/-- The state in which the answer of the typesetter leaves a document. -/
def Outcome.state : Outcome → RenderState
  | .stream _ => .rendered
  | .refused _ => .failed
  | .stalled => .failed

namespace Document

variable {σ : Type} (typesetter : Typesetter σ) (format : BinaryFormat) (d : Document) (s : σ)

/-- **Handing over.** The typesetter gets the source text and the format, and its answer
decides the verdict and the state. Nothing else of the document changes. -/
theorem toBinary_eq :
    d.toBinary typesetter format s
      = ((typesetter.run ⟨d.source, format⟩ s).1.verdict,
        { d with state := (typesetter.run ⟨d.source, format⟩ s).1.state },
        (typesetter.run ⟨d.source, format⟩ s).2) := by
  have hstart : startRender.on d = (.ok d.source, { d with state := .rendering }) := rfl
  rw [toBinary, hstart]
  simp only
  rcases typesetter.run ⟨d.source, format⟩ s with ⟨output | cause | _, s'⟩ <;> rfl

/-- Reading the stream changes the verdict and not the document. -/
theorem materialize_eq :
    d.materialize typesetter format s
      = (((typesetter.run ⟨d.source, format⟩ s).1.verdict.bind ByteStream.collect).bind
          fun bytes => .delivered ⟨.ofBinary format, bytes⟩,
        { d with state := (typesetter.run ⟨d.source, format⟩ s).1.state },
        (typesetter.run ⟨d.source, format⟩ s).2) := by
  rw [materialize, toBinary_eq]

theorem render_ofBinary :
    d.render typesetter (.ofBinary format) s = d.materialize typesetter format s := by
  cases format <;> rfl

end Document

/-! ## State and verdict -/

/-- The state says how the rendering ended. -/
def Verdict.Agrees {α : Type} (verdict : Verdict α) (state : RenderState) : Prop :=
  match verdict with
  | .delivered _ => state = .rendered
  | .failed _ => state = .failed
  | .abandoned => state = .failed

/-- The typesetter answers with a stream that fails before it ends for its reader. -/
def Outcome.Breaks (outcome : Outcome) : Prop :=
  ∃ output text, outcome = .stream output ∧ output.fault = some text ∧ [] ∉ output.chunks

namespace Outcome

/-- The stream that comes from the typesetter is rendered; the bytes may not come. -/
theorem agrees_iff (outcome : Outcome) (format : BinaryFormat) :
    Verdict.Agrees ((outcome.verdict.bind ByteStream.collect).bind
        fun bytes => .delivered (⟨.ofBinary format, bytes⟩ : Artifact)) outcome.state
      ↔ ¬ outcome.Breaks := by
  cases outcome with
  | refused cause =>
    refine iff_of_true rfl ?_
    rintro ⟨output, text, h, -⟩
    cases h
  | stalled =>
    refine iff_of_true rfl ?_
    rintro ⟨output, text, h, -⟩
    cases h
  | stream output =>
    have hbreaks : (stream output).Breaks ↔ ∃ text, output.readAll = .error text := by
      constructor
      · rintro ⟨_, text, hstream, h⟩
        cases hstream
        exact ⟨text, (output.readAll_error_iff text).mpr h⟩
      · rintro ⟨text, h⟩
        exact ⟨output, text, rfl, (output.readAll_error_iff text).mp h⟩
    rw [hbreaks, verdict, Verdict.bind, ByteStream.collect, state]
    cases output.readAll with
    | ok bytes => exact iff_of_true rfl fun ⟨_, h⟩ => nomatch h
    | error text => exact iff_of_false nofun fun h => h ⟨text, rfl⟩

end Outcome

namespace Document

/-- **When the state is the truth.** After a rendering to a binary format, and after one
for a text channel, the state says how the rendering ended unless the typesetter
answered with a stream that broke off. -/
theorem render_state_agrees_iff {σ : Type} (typesetter : Typesetter σ) (format : BinaryFormat)
    (d : Document) (s : σ) :
    ((d.render typesetter (.ofBinary format) s).1.Agrees
        (d.render typesetter (.ofBinary format) s).2.1.state
      ↔ ¬ (typesetter.run ⟨d.source, format⟩ s).1.Breaks) ∧
    ((d.renderForText typesetter s).1.Agrees (d.renderForText typesetter s).2.1.state
      ↔ ¬ (typesetter.run ⟨d.source, .pdf⟩ s).1.Breaks) := by
  constructor
  · rw [render_ofBinary, materialize_eq]
    exact Outcome.agrees_iff _ format
  · rw [renderForText, materialize_eq]
    exact Outcome.agrees_iff _ .pdf

/-- A stream of one chunk that breaks off: the rendering fails, and the document counts as
rendered. -/
theorem broken_stream_counts_as_rendered :
    let output : ByteStream := { chunks := [[112, 97, 114, 116]], fault := some "pipe broke" }
    let script : Script := { queue := [.stream output] }
    let after := (opened {} []).render Script.typesetter .pdf script
    after.1 = .failed (.io "pipe broke") ∧ after.2.1.state = .rendered
      ∧ ¬ after.1.Agrees after.2.1.state := by
  intro output script after
  have hread : output.readAll = .error "pipe broke" :=
    (output.readAll_error_iff _).mpr ⟨rfl, by decide⟩
  let used : Script := { jobs := [⟨(opened {} []).source, .pdf⟩] }
  have hrun : Script.typesetter.run ⟨(opened {} []).source, .pdf⟩ script
      = (.stream output, used) := rfl
  have hafter : after
      = (.failed (.io "pipe broke"), { opened {} [] with state := .rendered }, used) := by
    have hmaterialize : after = (opened {} []).materialize Script.typesetter .pdf script := rfl
    rw [hmaterialize, materialize_eq, hrun, Outcome.verdict, Verdict.bind, ByteStream.collect,
      hread]
    rfl
  rw [hafter]
  exact ⟨rfl, rfl, nofun⟩

end Document

end Galley
