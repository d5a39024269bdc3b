/-
`Proofs/Partitions.lean` -- a document that is not started over is three lists.

Its system directives follow from the options and stay as they are. Its definitions are
what the registrations add up to, and its body is what a plain stack makes of the calls
that write to it or take from it. Neither of the two looks at the other: a call that
numbers its fragment steps a counter, but the fragment has only the name of the counter
in it, and the counters that number fragments are declared from the start and never go
away. So registrations and body calls can be interleaved in any way without a change to
the source text.
-/
import Galley.Proofs.History

set_option autoImplicit false

namespace Galley

open Document

/-! ## The body as a stack -/

/-- What a call does to the body. -/
inductive BodyStep where
  | put (fragment : Fragment)
  | take
  deriving DecidableEq, Repr

namespace BodyStep

/-- What a step answers, and the body after it. -/
def on (body : List Fragment) : BodyStep → Answer × List Fragment
  | put fragment => (.done, body ++ [fragment])
  | take => (.removed body.getLast?, body.dropLast)

/-- What the steps of a list answer, and the body after them. -/
def runAll : List BodyStep → List Fragment → List Answer × List Fragment
  | [], body => ([], body)
  | step :: steps, body =>
    let (answer, body) := step.on body
    let (answers, body) := runAll steps body
    (answer :: answers, body)

end BodyStep

namespace Effect

/-- The step on the body that an effect is. All that it writes is in the effect: a number
is written as the name of its counter. -/
def bodyStep? : Effect → Option BodyStep
  | write (.ok fragment) => some (.put fragment)
  | remove true => some .take
  | number counter construct =>
    some (.put (construct (Tex.command "stepcounter" [counter]) (Tex.control ("the" ++ counter))))
  | _ => none

/-- The registration that an effect is. -/
def registration? : Effect → Option Registration
  | register (.ok r) => some r
  | _ => none

/-- Whether an effect is to begin a new document. -/
def startsOver : Effect → Bool
  | start _ => true
  | _ => false

end Effect

namespace Operation

/-- What a call does to the body, by its arguments alone. -/
def bodyStep? (op : Operation) : Option BodyStep := op.effect.bodyStep?

/-- What a call registers, by its arguments alone. -/
def registration? (op : Operation) : Option Registration := op.effect.registration?

/-- Whether a call is to start the document over. -/
def startsOver (op : Operation) : Bool := op.effect.startsOver

/-- What is answered to the body calls of a list, made on a document with all the
others. -/
def bodyAnswers (operations : List Operation) (d : Document) :
    List (Except DocumentError Answer) :=
  ((transcript operations d).filter fun call => call.1.bodyStep?.isSome).map Prod.snd

/-- The counters that number fragments are built in. -/
theorem number_builtIn {op : Operation} {counter : String}
    {construct : Fragment → Fragment → Fragment} (h : op.effect = .number counter construct) :
    counter ∈ builtInCounters := by
  cases op with
  | numberedParagraph label text =>
    cases h
    exact List.mem_cons_self
  | numberedHeading title =>
    cases h
    exact List.mem_cons_of_mem _ List.mem_cons_self
  | _ => cases h

end Operation

/-! ## Three lists -/

/-- The buffer that options, steps on the body and registrations add up to, each in a
partition of its own. -/
def Buffer.assembled (o : DocumentOptions) (steps : List BodyStep)
    (registrations : List Registration) : Buffer where
  system := Preamble.system o
  definitions := Preamble.listCommands :: (Registration.effective
    (builtIns ++ (colourEntries o).map Registration.colour ++ registrations)).map
      Registration.fragment
  body := (BodyStep.runAll steps o.body).2

section Calls

variable {edition : Edition} {d : Document}

/-! ## One call -/

namespace Effect

variable {effect : Effect}

theorem system_on (h : effect.startsOver = false) :
    (effect.on d).2.buffer.system = d.buffer.system := by
  cases effect with
  | write construct => cases construct <;> rfl
  | remove wanted => cases wanted <;> rfl
  | advance counter =>
    rw [on]
    cases d.counters.step counter <;> rfl
  | number counter construct =>
    rw [on]
    cases d.counters.step counter <;> rfl
  | register r =>
    cases r with
    | ok r => exact system_register d r
    | error e => rfl
  | start options => cases h
  | _ => rfl

/-- A step on the body succeeds and does what it does on a stack, if its counter is
declared. -/
theorem body_on_step {step : BodyStep} (h : effect.bodyStep? = some step)
    (hdeclared : ∀ counter construct, effect = .number counter construct →
      d.counters.contains counter = true) :
    (effect.on d).1 = .ok (step.on d.buffer.body).1 ∧
      (effect.on d).2.buffer.body = (step.on d.buffer.body).2 := by
  cases effect with
  | write construct =>
    cases construct with
    | ok fragment =>
      cases h
      exact ⟨rfl, rfl⟩
    | error e => cases h
  | remove wanted =>
    cases wanted with
    | true =>
      cases h
      exact ⟨rfl, rfl⟩
    | false => cases h
  | number counter construct =>
    cases h
    rw [on, Counters.step, if_pos (hdeclared counter construct rfl)]
    exact ⟨rfl, rfl⟩
  | register r => cases r <;> cases h
  | _ => cases h

/-- Anything else leaves the body alone. -/
theorem body_on_other (hstep : effect.bodyStep? = none) (hstart : effect.startsOver = false) :
    (effect.on d).2.buffer.body = d.buffer.body := by
  cases effect with
  | write construct =>
    cases construct with
    | ok fragment => cases hstep
    | error e => rfl
  | remove wanted =>
    cases wanted with
    | true => cases hstep
    | false => rfl
  | advance counter =>
    rw [on]
    cases d.counters.step counter <;> rfl
  | number counter construct => cases hstep
  | register r =>
    cases r with
    | ok r => exact body_register d r
    | error e => rfl
  | start options => cases hstart
  | _ => rfl

end Effect

/-- The edition grows by the registration, if the call is one. -/
theorem Edition.registrations_extend {effect : Effect} (h : effect.startsOver = false) :
    (edition.extend effect (effect.on d).1).registrations
      = edition.registrations ++ effect.registration?.toList := by
  cases effect with
  | register r =>
    cases r with
    | ok r => exact (List.append_assoc _ _ _).symm
    | error e => exact (List.append_nil _).symm
  | start options => cases h
  | _ => exact (List.append_nil _).symm

/-! ## Any number of calls -/

namespace Operation

variable {operations : List Operation}

theorem system_runAll (h : ∀ op ∈ operations, op.startsOver = false) :
    (runAll operations d).buffer.system = d.buffer.system := by
  induction operations generalizing d with
  | nil => rfl
  | cons op operations ih =>
    obtain ⟨hop, hrest⟩ := List.forall_mem_cons.mp h
    have hstep := Effect.system_on (d := d) hop
    rw [← run_on] at hstep
    exact (ih hrest).trans hstep

/-- The registrations that are entered are those that the calls name. -/
theorem registrations_after (h : ∀ op ∈ operations, op.startsOver = false) :
    (edition.after (transcript operations d)).registrations
      = edition.registrations ++ operations.filterMap registration? := by
  induction operations generalizing edition d with
  | nil => exact (List.append_nil _).symm
  | cons op operations ih =>
    obtain ⟨hop, hrest⟩ := List.forall_mem_cons.mp h
    have hstep : (edition.extend op.effect (op.run.on d).1).registrations
        = edition.registrations ++ op.effect.registration?.toList := by
      rw [run_on]
      exact Edition.registrations_extend hop
    rw [transcript, Edition.after, List.foldl_cons, ← Edition.after, ih hrest, hstep,
      List.append_assoc, List.filterMap_cons, registration?]
    cases op.effect.registration? <;> rfl

/-- **The body is a stack.** By induction on the calls: a body call makes its step, and
its counter is declared whatever came before; the others leave the body to the next. -/
theorem body_runAll (h : Tracks edition d) (hcalls : ∀ op ∈ operations, op.startsOver = false) :
    bodyAnswers operations d
        = (BodyStep.runAll (operations.filterMap bodyStep?) d.buffer.body).1.map .ok ∧
      (runAll operations d).buffer.body
        = (BodyStep.runAll (operations.filterMap bodyStep?) d.buffer.body).2 := by
  induction operations generalizing edition d with
  | nil => exact ⟨rfl, rfl⟩
  | cons op operations ih =>
    obtain ⟨hop, hrest⟩ := List.forall_mem_cons.mp hcalls
    have htracks := h.step op.effect
    rw [← run_on] at htracks
    obtain ⟨hanswers, hbody⟩ := ih htracks hrest
    cases hstep : op.bodyStep? with
    | some step =>
      obtain ⟨hanswer, hafter⟩ := Effect.body_on_step (d := d) hstep
        fun counter construct hnumber => h.contains_builtIn (number_builtIn hnumber)
      rw [← run_on] at hanswer hafter
      rw [hafter] at hanswers hbody
      rw [List.filterMap_cons_some hstep, BodyStep.runAll, bodyAnswers, transcript,
        List.filter_cons_of_pos (by rw [hstep]; rfl), List.map_cons, ← bodyAnswers, hanswers,
        hanswer]
      exact ⟨rfl, hbody⟩
    | none =>
      have hafter := Effect.body_on_other (d := d) hstep hop
      rw [← run_on] at hafter
      rw [hafter] at hanswers hbody
      rw [List.filterMap_cons_none hstep, bodyAnswers, transcript,
        List.filter_cons_of_neg (by rw [hstep]; exact Bool.false_ne_true), ← bodyAnswers]
      exact ⟨hanswers, hbody⟩

end Operation

end Calls

namespace Document

open Operation

theorem new_partitions {o : DocumentOptions} {d : Document} (h : Document.new o = .ok d) :
    d.buffer.system = Preamble.system o ∧ d.buffer.body = o.body := by
  obtain ⟨entries, -, rfl⟩ := new_ok h
  exact ⟨system_foldl_register _ (blank o), rfl⟩

/-- **The partitions are independent.** After calls on a new document none of which is to
start it over, the system directives are those of the options, the definitions follow
from the registrations alone, and the body and what the body calls answered are what a
stack makes of the steps of the body calls alone, beginning with the body of the options.
The source text is these three, in this order. So it is the same for any two lists of
calls that name the same registrations in one order and the same body steps in one
order, however the two are interleaved. -/
theorem partitions_are_independent {o : DocumentOptions} {d₀ : Document}
    (h : Document.new o = .ok d₀) :
    (∀ operations : List Operation, (∀ op ∈ operations, op.startsOver = false) →
      let buffer := (runAll operations d₀).buffer
      let steps := operations.filterMap bodyStep?
      buffer = .assembled o steps (operations.filterMap registration?) ∧
      bodyAnswers operations d₀ = (BodyStep.runAll steps o.body).1.map .ok ∧
      (runAll operations d₀).source
        = String.intercalate "\n" (buffer.system ++ buffer.definitions ++ buffer.body)) ∧
    ∀ operations operations' : List Operation,
      (∀ op ∈ operations, op.startsOver = false) → (∀ op ∈ operations', op.startsOver = false) →
      operations.filterMap bodyStep? = operations'.filterMap bodyStep? →
      operations.filterMap registration? = operations'.filterMap registration? →
      (runAll operations d₀).source = (runAll operations' d₀).source := by
  have hnew := tracks_new h
  obtain ⟨hsystem, hbody⟩ := new_partitions h
  have hlists : ∀ operations : List Operation, (∀ op ∈ operations, op.startsOver = false) →
      (runAll operations d₀).buffer = .assembled o (operations.filterMap bodyStep?)
        (operations.filterMap registration?) := by
    intro operations hcalls
    have hdefinitions := (hnew.runAll operations).mirrors.definitions
    rw [Edition.log, registrations_after hcalls, Edition.registrations, List.append_nil]
      at hdefinitions
    rw [Buffer.assembled, ← hbody, ← (body_runAll hnew hcalls).2, ← hdefinitions, ← hsystem,
      ← system_runAll hcalls]
  refine ⟨fun operations hcalls => ⟨hlists operations hcalls, ?_, rfl⟩,
    fun operations operations' hcalls hcalls' hsteps hregistrations => ?_⟩
  · rw [← hbody]
    exact (body_runAll hnew hcalls).1
  · rw [source, source, hlists operations hcalls, hlists operations' hcalls', hsteps,
      hregistrations]

/-- Two interleavings of a numbered paragraph, a removal, a style and a counter of its own
with a look-up and a step in between. -/
theorem interleavings_have_one_source :
    let operations : List Operation :=
      [.numberedParagraph "a" "b", .addStyle "loud" "\\textsc\x7b" "\x7d", .push "c", .pop,
        .addCounter "clause"]
    let operations' : List Operation :=
      [.addStyle "loud" "\\textsc\x7b" "\x7d", .stepCounter "enumcount", .addCounter "clause",
        .numberedParagraph "a" "b", .popIf false, .style "loud" "x", .push "c", .pop]
    (runAll operations (opened {} [])).source = (runAll operations' (opened {} [])).source := by
  intro operations operations'
  have hsteps : operations.filterMap bodyStep? = operations'.filterMap bodyStep? := rfl
  have hregistrations :
      operations.filterMap registration? = operations'.filterMap registration? := rfl
  exact (partitions_are_independent new_default).2 operations operations' (by decide)
    (by decide) hsteps hregistrations

end Document

end Galley
