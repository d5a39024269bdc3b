/-
`Proofs/History.lean` -- what a history of calls has registered.

A history is a list of calls with what each of them answered. An edition is the part of
it that still counts: starting over, when it succeeds, begins a new edition with the
built-in names and the colours of the options, and every registration that succeeds
after that is entered in it. A call that fails enters nothing. The document at the end
of the history mirrors the edition that the history ends in, whatever the calls were
and however they ended.
-/
import Galley.Proofs.Effect
import Galley.Proofs.Mirror

set_option autoImplicit false

namespace Galley

open Registration Document

/-! ## Editions -/

/-- What a document was last started with, and what was registered in it since. -/
structure Edition where
  options : DocumentOptions
  entered : List Registration := []

namespace Edition

/-- The edition after a call with this effect and this outcome. -/
def extend (edition : Edition) (effect : Effect) (outcome : Except DocumentError Answer) :
    Edition :=
  match effect, outcome with
  | .start options, .ok _ => { options := options.getD edition.options }
  | .register (.ok r), .ok _ => { edition with entered := edition.entered ++ [r] }
  | _, _ => edition

/-- The edition that a history ends in. -/
def after (edition : Edition) (history : List (Operation × Except DocumentError Answer)) :
    Edition :=
  history.foldl (fun edition call => edition.extend call.1.effect call.2) edition

/-- All registrations of an edition: the built-in ones, the colours of the options, and
those that were entered. -/
def registrations (edition : Edition) : List Registration :=
  builtIns ++ (colourEntries edition.options).map Registration.colour ++ edition.entered

/-- The registrations that took effect. -/
def log (edition : Edition) : List Registration := Registration.effective edition.registrations

end Edition

/-! ## A document and its edition -/

/-- The document is what the edition says. -/
structure Tracks (edition : Edition) (d : Document) : Prop where
  options : d.options = edition.options
  mirrors : Mirrors edition.log d

variable {edition : Edition} {d : Document}

theorem tracks_opened {o : DocumentOptions} {entries : List ColourEntry}
    (h : admitted o = .ok entries) : Tracks { options := o } (opened o entries) := by
  obtain rfl := admitted_ok h
  refine ⟨rfl, ?_⟩
  rw [Edition.log, Edition.registrations, List.append_nil]
  exact mirrors_opened o _

/-- A built-in counter is declared in every edition. -/
theorem Tracks.contains_builtIn (h : Tracks edition d) {counter : String}
    (hcounter : counter ∈ builtInCounters) : d.counters.contains counter = true := by
  have hbuiltIn : Registration.counter counter ∈ builtIns :=
    List.mem_append_left _ (List.mem_append_left _ (List.mem_map_of_mem hcounter))
  rw [Counters.contains_iff, h.mirrors.counters, mem_counters_iff, Edition.log, mem_effective]
  exact List.mem_append_left _ (List.mem_append_left _ hbuiltIn)

theorem Tracks.register (h : Tracks edition d) (r : Registration) :
    Tracks { edition with entered := edition.entered ++ [r] } (d.register r) := by
  have hlog : Edition.log { edition with entered := edition.entered ++ [r] }
      = Registration.record edition.log r := by
    rw [Edition.log, Edition.log, Edition.registrations, Edition.registrations,
      ← List.append_assoc, Registration.effective, List.foldl_append]
    rfl
  refine ⟨(options_register d r).trans h.options, ?_⟩
  rw [hlog]
  exact h.mirrors.register r

/-- A change that spares the options, the definitions, the registries and the
declarations. -/
theorem Tracks.of_eq (h : Tracks edition d) {d' : Document} (ho : d'.options = d.options)
    (hd : d'.buffer.definitions = d.buffer.definitions) (hr : d'.registries = d.registries)
    (hc : d'.counters.names = d.counters.names) : Tracks edition d' where
  options := ho.trans h.options
  mirrors :=
    { definitions := hd.trans h.mirrors.definitions
      colours := (congrArg Registries.colours hr).trans h.mirrors.colours
      styles := (congrArg Registries.styles hr).trans h.mirrors.styles
      commands := (congrArg Registries.commands hr).trans h.mirrors.commands
      counters := hc.trans h.mirrors.counters
      nodup := hc ▸ h.mirrors.nodup }

/-- **One call.** Whatever its effect and however it ends, the document keeps to the
edition. Only registrations and fresh starts change what an edition says, so in the
other cases there is nothing to show but that they spare it. -/
theorem Tracks.step (h : Tracks edition d) (effect : Effect) :
    Tracks (edition.extend effect (effect.on d).1) (effect.on d).2 := by
  cases effect with
  | write construct =>
    cases construct with
    | ok fragment => exact h.of_eq rfl rfl rfl rfl
    | error e => exact h
  | remove wanted =>
    cases wanted with
    | true => exact h.of_eq rfl rfl rfl rfl
    | false => exact h
  | advance counter =>
    rw [Effect.on]
    cases hs : d.counters.step counter with
    | ok s => exact h.of_eq rfl rfl rfl (Counters.names_step hs)
    | error e => exact h
  | number counter construct =>
    rw [Effect.on]
    cases hs : d.counters.step counter with
    | ok s => exact h.of_eq rfl rfl rfl (Counters.names_step hs)
    | error e => exact h
  | register r =>
    cases r with
    | ok r => exact h.register r
    | error e => exact h
  | read answer => exact h
  | start options =>
    rw [Effect.on]
    cases ho : admitted (options.getD d.options) with
    | ok entries =>
      show Tracks { options := options.getD edition.options } _
      rw [← h.options]
      exact tracks_opened ho
    | error e => exact h
  | snapshot => exact h.of_eq rfl rfl rfl rfl
  | settle success => exact h.of_eq rfl rfl rfl rfl

/-- **A whole history.** By induction on the calls. -/
theorem Tracks.runAll (h : Tracks edition d) (operations : List Operation) :
    Tracks (edition.after (Operation.transcript operations d)) (Operation.runAll operations d) := by
  induction operations generalizing edition d with
  | nil => exact h
  | cons op operations ih =>
    have hstep := h.step op.effect
    rw [← Operation.run_on] at hstep
    exact ih hstep

theorem tracks_new {o : DocumentOptions} (h : Document.new o = .ok d) :
    Tracks { options := o } d := by
  obtain ⟨entries, ho, rfl⟩ := new_ok h
  exact tracks_opened ho

/-- **The definitions and the registries never drift apart.** After any calls on a new
document, and with the log of the edition they end in: the definitions are the block of
list commands and the fragments of the log, the registries and the counters are what
the log adds up to, and the document holds exactly the registrations that no later one
of their kind and name follows. So what it holds is defined and not redefined, what is
defined is held, and a counter is declared once or not at all. -/
theorem definitions_mirror_registries {o : DocumentOptions} {d₀ : Document}
    (h : Document.new o = .ok d₀) (operations : List Operation) :
    let d := Operation.runAll operations d₀
    let log := (Edition.after { options := o } (Operation.transcript operations d₀)).log
    d.buffer.definitions = Preamble.listCommands :: log.map Registration.fragment ∧
    (d.colours = Registry.ofList (log.filterMap Registration.colour?) ∧
      d.styles = Registry.ofList (log.filterMap Registration.style?) ∧
      d.commands = Registry.ofList (log.filterMap Registration.command?) ∧
      d.counters.names = log.filterMap Registration.counter?) ∧
    (∀ r : Registration, d.Holds r ↔ r.LastIn log) ∧
    (∀ r : Registration, d.Holds r → ∃ before after, log = before ++ r :: after ∧
      d.buffer.definitions = (Preamble.listCommands :: before.map Registration.fragment)
        ++ r.fragment :: after.map Registration.fragment ∧
      ∀ s ∈ after, ¬ s.SameKey r) ∧
    (∀ r ∈ log, ∃ s : Registration, s.SameKey r ∧ d.Holds s) ∧
    ∀ name, d.buffer.definitions.count (Registration.counter name).fragment
      = if d.counters.contains name then 1 else 0 := by
  intro d log
  have hd : Mirrors log d := ((tracks_new h).runAll operations).mirrors
  exact ⟨hd.definitions, ⟨hd.colours, hd.styles, hd.commands, hd.counters⟩, hd.holds_iff,
    fun r hr => hd.definition_last hr, fun r hr => hd.exists_held hr, hd.count_declaration⟩

/-- A counter that is declared twice, with a refused start in between. -/
theorem redeclared_counter_stands_once :
    let operations : List Operation :=
      [.addCounter "clause", .init { watermark := some { text := "#" } }, .addCounter "clause"]
    (Operation.runAll operations (opened {} [])).buffer.definitions.count
      (Registration.counter "clause").fragment = 1 := by
  intro operations
  have hnew : Document.new {} = .ok (opened {} []) := by
    rw [new_eq]
    rfl
  have hc : (Operation.runAll operations (opened {} [])).counters.contains "clause" = true := rfl
  have hcount := (definitions_mirror_registries hnew operations).2.2.2.2.2 "clause"
  rwa [if_pos hc] at hcount

end Galley
