/-
`Proofs/Atomicity.lean` -- a call that fails changes nothing.

An edit does not undo what it did before it fails, so this is a property of the calls:
each of them finds out all that can go wrong before it changes anything. Starting over
is the case with something to lose, since it clears the document and then registers the
built-in names, and a registration can be refused. The built-in ones never are, and
the options fail while they are checked or not at all.
-/
import Galley.Proofs.Effect

set_option autoImplicit false

namespace Galley

/-- An effect that fails leaves the document as it was. -/
theorem Effect.on_error {effect : Effect} {d : Document} {e : DocumentError}
    (h : (effect.on d).1 = .error e) : (effect.on d).2 = d := by
  cases effect with
  | write construct =>
    cases construct with
    | ok fragment => cases h
    | error cause => rfl
  | remove wanted => cases wanted <;> cases h
  | advance counter =>
    rw [on] at h ⊢
    cases hs : d.counters.step counter with
    | ok s =>
      rw [hs] at h
      cases h
    | error cause => rfl
  | number counter construct =>
    rw [on] at h ⊢
    cases hs : d.counters.step counter with
    | ok s =>
      rw [hs] at h
      cases h
    | error cause => rfl
  | register r =>
    cases r with
    | ok r => cases h
    | error cause => rfl
  | read answer => rfl
  | start options =>
    rw [on] at h ⊢
    cases ho : Document.admitted (options.getD d.options) with
    | ok entries =>
      rw [ho] at h
      cases h
    | error cause => rfl
  | snapshot => cases h
  | settle success => cases h

namespace Document

/-- Starting over fails exactly when the check of the options does. -/
theorem init_error_iff (o : DocumentOptions) (d : Document) (e : DocumentError) :
    ((init o).on d).1 = .error e ↔ ((checkOptions o).on d).1 = .error e := by
  rw [init_on, checkOptions_on]
  cases admitted o <;> simp

/-- **Failing calls are atomic.** Whatever the document and the call, an error leaves
all of the document as it was. What starting over does after it has cleared the document
succeeds on every document, so that it fails only while it checks the options. -/
theorem failed_call_changes_nothing :
    (∀ (op : Operation) (d : Document) (e : DocumentError),
      (op.run.on d).1 = .error e → (op.run.on d).2 = d) ∧
    (∀ d : Document,
      (∀ name ∈ builtInCounters, ((addCounter name).on d).1 = .ok ()) ∧
      (∀ s ∈ builtInStyles, ((addStyle s.1 s.2.1 s.2.2).on d).1 = .ok ()) ∧
      ∀ c ∈ builtInColours, ((addColour c.1 c.2 .html).on d).1 = .ok ()) ∧
    ∀ (o : DocumentOptions) (d : Document) (e : DocumentError),
      ((init o).on d).1 = .error e ↔ ((checkOptions o).on d).1 = .error e := by
  refine ⟨fun op d e h => ?_, fun d => ⟨fun name h => ?_, fun s h => ?_, fun c h => ?_⟩,
    init_error_iff⟩
  · rw [Operation.run_on] at h ⊢
    exact Effect.on_error h
  · rw [addCounter_builtIn h]
  · rw [addStyle_builtIn h]
  · rw [addColour_builtIn h]

/-- A document with content that is started over with a percent sign in the watermark. -/
theorem refused_watermark_changes_nothing :
    let d : Document := { buffer := { body := ["kept"] }, state := .rendered }
    let op : Operation := .init { isFinal := true, watermark := some { text := "50%" } }
    (op.run.on d).1 = .error (.validation (.watermarkText "50%" '%')) ∧ (op.run.on d).2 = d := by
  intro d op
  have h : (op.run.on d).1 = .error (.validation (.watermarkText "50%" '%')) := rfl
  exact ⟨h, failed_call_changes_nothing.1 op d _ h⟩

end Document

end Galley
