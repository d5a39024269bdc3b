/-
`Proofs/Counting.lean` -- counters count exactly the steps.

A counter is stepped in three ways: by a call that names it, and by each of the two kinds
of numbered content, which have counters of their own. A value says how often that
happened since the document was last started, and nothing else moves it. Declaring a
counter again leaves it where it is, and a call that fails steps nothing. The two built-in
counters are declared in every document, so numbered content cannot fail, and no step of
it is lost.

Values are words of 32 bits. As words they agree with the number of steps without any
bound; the bound is needed only to read the number back.
-/
import Galley.Proofs.Names

set_option autoImplicit false

namespace Galley

open Registry Document

/-! ## Values and steps -/

namespace Counters

variable {cs cs' : Counters} {counter name : String}

/-- The steps written for a counter; for a name that is none there are no steps. -/
def written (cs : Counters) (name : String) : UInt32 := (cs.value? name).getD 0

theorem value?_eq_none_iff : cs.value? name = none ↔ cs.contains name = false := by
  rw [value?, contains, Option.map_eq_none_iff, List.find?_eq_none, List.any_eq_false]

/-- A new counter is found where none was, with nothing written for it. -/
theorem written_declare (cs : Counters) (counter name : String) :
    written { declared := cs.declared ++ [⟨counter, 0⟩] } name = cs.written name := by
  rw [written, written, value?, value?, List.find?_append]
  cases cs.declared.find? fun c => c.name = name with
  | some c => rfl
  | none =>
    by_cases hname : counter = name
    · simp [hname]
    · simp [hname]

/-- A step adds one to its counter and nothing to any other. -/
theorem written_step {fragment : Fragment} (h : cs.step counter = .ok (fragment, cs'))
    (name : String) : cs'.written name = cs.written name + if counter = name then 1 else 0 := by
  rw [step] at h
  split at h
  · next hdeclared =>
    obtain ⟨-, rfl⟩ := Prod.mk.inj (Except.ok.inj h)
    -- A step keeps the names, so a name leads to the same counter before and after.
    have hfind : ∀ c : Counter,
        (if c.name = counter then { c with value := c.value + 1 } else c).name = c.name := by
      intro c
      split <;> rfl
    rw [written, written, value?, value?, List.find?_map]
    simp only [Function.comp_def, hfind]
    cases hc : cs.declared.find? fun c => c.name = name with
    | none =>
      -- The counter is declared, so the name is that of no counter.
      have hother : counter ≠ name := by
        rintro rfl
        have hmissing : cs.contains counter = false :=
          value?_eq_none_iff.mp (by rw [value?, hc, Option.map_none])
        rw [hdeclared] at hmissing
        cases hmissing
      simp [hother]
    | some c =>
      have hname : c.name = name := by simpa using List.find?_some hc
      by_cases hcounter : counter = name
      · simp [hname, hcounter]
      · simp [hname, hcounter, Ne.symm hcounter]
  · cases h

theorem exists_step (h : cs.contains counter = true) :
    ∃ cs', cs.step counter = .ok (Tex.command "stepcounter" [counter], cs') :=
  ⟨_, if_pos h⟩

end Counters

namespace Document

variable {d : Document}

theorem written_register (d : Document) (r : Registration) (name : String) :
    (d.register r).counters.written name = d.counters.written name := by
  cases r with
  | counter counter =>
    by_cases hdeclared : d.counters.contains counter = true
    · rw [register_declared hdeclared]
    · rw [register_undeclared hdeclared]
      exact Counters.written_declare d.counters counter name
  | _ => rfl

/-- A document starts with no step of any counter. -/
theorem written_opened (o : DocumentOptions) (entries : List ColourEntry) (name : String) :
    (opened o entries).counters.written name = 0 := by
  have hlist : ∀ (l : List Registration) (d : Document),
      (l.foldl register d).counters.written name = d.counters.written name := by
    intro l
    induction l with
    | nil => exact fun _ => rfl
    | cons r l ih =>
      intro d
      rw [List.foldl_cons, ih, written_register]
  exact hlist _ (blank o)

end Document

/-! ## One call -/

namespace Call

/-- The call steps a counter: it names it and succeeds, or it writes numbered content, which
has a counter of its own. -/
def steps (name : String) (call : Call) : Bool :=
  match call.1 with
  | .stepCounter counter => counter == name && call.2.isOk
  | .numberedParagraph .. => Counters.paragraphs == name
  | .numberedHeading .. => Counters.headings == name
  | _ => false

end Call

/-- How often calls have stepped a counter. -/
def stepsOf (name : String) (calls : List Call) : Nat := calls.countP (Call.steps name)

namespace Effect

/-- Whether the effect is to step a counter. -/
def stepsCounter : Effect → Bool
  | advance _ => true
  | number .. => true
  | _ => false

variable {effect : Effect} {d : Document} {name : String}

/-- What is no step and does not start over leaves what is written for every counter. -/
theorem written_on (hstep : effect.stepsCounter = false)
    (hbegin : (effect.startsOver && (effect.on d).1.isOk) = false) :
    (effect.on d).2.counters.written name = d.counters.written name := by
  cases effect with
  | write construct => cases construct <;> rfl
  | remove wanted => cases wanted <;> rfl
  | advance counter => cases hstep
  | number counter construct => cases hstep
  | register r =>
    cases r with
    | ok r => exact written_register d r name
    | error e => rfl
  | start options => rw [start_refused hbegin]
  | _ => rfl

/-- A step of a counter by its name counts if it succeeds. -/
theorem written_advance (counter : String) :
    ((advance counter).on d).2.counters.written name
      = d.counters.written name
        + if (counter == name && ((advance counter).on d).1.isOk) = true then 1 else 0 := by
  rw [on]
  cases hstep : d.counters.step counter with
  | ok s =>
    rw [Counters.written_step hstep]
    simp [Except.isOk, Except.toBool]
  | error e => simp [Except.isOk, Except.toBool]

/-- Numbered content of a declared counter is written, and counts. -/
theorem number_on {counter : String} (construct : Fragment → Fragment → Fragment)
    (h : d.counters.contains counter = true) :
    ((number counter construct).on d).1 = .ok .done ∧
      ((number counter construct).on d).2.buffer
        = d.buffer.append .body
          (construct (Tex.command "stepcounter" [counter]) (Tex.control ("the" ++ counter))) ∧
      ∀ name, ((number counter construct).on d).2.counters.written name
        = d.counters.written name + if counter = name then 1 else 0 := by
  obtain ⟨cs', hstep⟩ := Counters.exists_step h
  rw [on, hstep]
  exact ⟨rfl, rfl, Counters.written_step hstep⟩

end Effect

/-- **One call.** Unless it starts over, it adds to what is written for a counter if it
steps it. -/
theorem Tracks.written_step {edition : Edition} {d : Document} (h : Tracks edition d)
    (op : Operation) (name : String) (hbegin : Call.begins (op, (op.run.on d).1) = false) :
    (op.run.on d).2.counters.written name
      = d.counters.written name
        + if Call.steps name (op, (op.run.on d).1) = true then 1 else 0 := by
  have hother : op.effect.stepsCounter = false → Call.steps name (op, (op.run.on d).1) = false →
      (op.run.on d).2.counters.written name
        = d.counters.written name
          + if Call.steps name (op, (op.run.on d).1) = true then 1 else 0 := by
    intro heffect hstep
    rw [Call.begins, Operation.startsOver, Operation.run_on] at hbegin
    rw [hstep, Operation.run_on, Effect.written_on heffect hbegin]
    simp
  have hnumber : ∀ {counter : String} {construct : Fragment → Fragment → Fragment},
      op.effect = .number counter construct →
      (op.run.on d).2.counters.written name
        = d.counters.written name + if counter = name then 1 else 0 := by
    intro counter construct heffect
    have hdeclared := h.contains_builtIn (Operation.number_builtIn heffect)
    rw [Operation.run_on, heffect]
    exact (Effect.number_on construct hdeclared).2.2 name
  cases op with
  | stepCounter counter =>
    rw [Operation.run_on]
    exact Effect.written_advance counter
  | numberedParagraph label text => simpa [Call.steps] using hnumber rfl
  | numberedHeading title => simpa [Call.steps] using hnumber rfl
  | _ => exact hother rfl rfl

/-! ## Any number of calls -/

/-- **A whole history.** What is written for a counter is the number of its steps since the
last start, as a word. -/
theorem Document.written_runAll {o : DocumentOptions} {d₀ : Document}
    (h : Document.new o = .ok d₀) (operations : List Operation) (name : String) :
    (Operation.runAll operations d₀).counters.written name
      = UInt32.ofNat (stepsOf name (sinceStart (Operation.transcript operations d₀))) := by
  have hstep : ∀ (op : Operation) {edition : Edition} {d : Document} {calls : List Call},
      Tracks edition d → Call.begins (op, (op.run.on d).1) = false →
      d.counters.written name = UInt32.ofNat (stepsOf name calls) →
      (op.run.on d).2.counters.written name
        = UInt32.ofNat (stepsOf name (calls ++ [(op, (op.run.on d).1)])) := by
    intro op edition d calls htracks hbegin hcalls
    have hcount : stepsOf name (calls ++ [(op, (op.run.on d).1)])
        = stepsOf name calls + if Call.steps name (op, (op.run.on d).1) = true then 1 else 0 := by
      rw [stepsOf, stepsOf, List.countP_append, List.countP_singleton]
    rw [htracks.written_step op name hbegin, hcalls, hcount, UInt32.ofNat_add]
    split <;> rfl
  exact eq_sinceStart (fun d => d.counters.written name)
    (fun calls => UInt32.ofNat (stepsOf name calls))
    (fun o entries => written_opened o entries name) hstep h operations

/-! ## Declared counters -/

theorem Operation.key_counter_iff {op : Operation} {name : String} :
    op.key? = some (.counter, name) ↔ op = .addCounter name := by
  cases op <;> simp [key?]

/-- A counter is known when it is one of the two that number content, or was declared. -/
theorem known_counter_iff {options : DocumentOptions} {calls : List Call} {name : String} :
    Known options calls .counter name ↔
      name = Counters.paragraphs ∨ name = Counters.headings ∨
        ∃ call ∈ calls, call.1 = .addCounter name ∧ call.2.isOk = true := by
  have hbuiltIn : (∃ r ∈ builtIns, r.kind = .counter ∧ r.name = name) ↔
      name = Counters.paragraphs ∨ name = Counters.headings := by
    simp [builtIns, builtInCounters, builtInStyles, builtInColours, Registration.kind,
      Registration.name, eq_comm]
  rw [Known, hbuiltIn, or_assoc]
  simp [Operation.key_counter_iff]

/-- A counter has no value when it is not known. -/
theorem Document.value?_eq_none_iff {o : DocumentOptions} {d₀ : Document}
    (h : Document.new o = .ok d₀) (operations : List Operation) (name : String) :
    (Operation.runAll operations d₀).counters.value? name = none ↔
      name ≠ Counters.paragraphs ∧ name ≠ Counters.headings ∧
        ∀ call ∈ sinceStart (Operation.transcript operations d₀),
          call.1 = .addCounter name → call.2.isOk = false := by
  have hknown := (has_iff_known h operations .counter name).trans known_counter_iff
  rw [Counters.value?_eq_none_iff, ← Bool.not_eq_true]
  refine (not_congr hknown).trans ?_
  simp only [not_or, not_exists, not_and, Bool.not_eq_true, ne_eq]

/-! ## Numbered content -/

namespace Construct

/-- A numbered paragraph steps its counter once, and refers to it after that. -/
theorem numberedParagraph_text (label text : String) :
    numberedParagraph (Tex.command "stepcounter" [Counters.paragraphs])
        (Tex.control ("the" ++ Counters.paragraphs)) label text
      = "\\stepcounter\x7benumcount\x7d" ++ "\n\\reversemarginpar\\marginnote\x7b\\textbf\x7b"
        ++ "\\theenumcount" ++ " .\x7d\x7d[0.9cm]\\paragraph\x7b" ++ label
        ++ "\x7d\\nonfrenchspacing " ++ text ++ "\n" := by
  refine String.toList_inj.mp ?_
  simp [numberedParagraph, Tex.command, Tex.group, Tex.control, Tex.bracket, Counters.paragraphs]

/-- So does a numbered heading. -/
theorem numberedHeading_text (title : String) :
    numberedHeading (Tex.command "stepcounter" [Counters.headings])
        (Tex.control ("the" ++ Counters.headings)) title
      = "\\stepcounter\x7benumheadcount\x7d" ++ "\n\\subsubsection*\x7b\\bf ARTICLE "
        ++ "\\theenumheadcount" ++ "\\ -\\ " ++ title ++ "\x7d\n" := by
  refine String.toList_inj.mp ?_
  simp [numberedHeading, Tex.command, Tex.group, Tex.control, Counters.headings]

end Construct

namespace Document

open Operation

/-- What a history counts of a declared counter is read back from its value. -/
theorem value_of_runAll {o : DocumentOptions} {d₀ : Document} (h : Document.new o = .ok d₀)
    (operations : List Operation) {name : String} {value : UInt32}
    (hvalue : (runAll operations d₀).counters.value? name = some value) :
    value = UInt32.ofNat (stepsOf name (sinceStart (transcript operations d₀))) := by
  have hwritten := written_runAll h operations name
  rwa [Counters.written, hvalue, Option.getD_some] at hwritten

/-- **A value stays** through a call that neither starts over nor steps its counter. -/
theorem value_kept {o : DocumentOptions} {d₀ : Document} (h : Document.new o = .ok d₀)
    (operations : List Operation) (op : Operation) {name : String} {value : UInt32}
    (hvalue : (runAll operations d₀).counters.value? name = some value)
    (hbegin : Call.begins (op, (op.run.on (runAll operations d₀)).1) = false)
    (hstep : Call.steps name (op, (op.run.on (runAll operations d₀)).1) = false) :
    (op.run.on (runAll operations d₀)).2.counters.value? name = some value := by
  have hcalls : sinceStart (transcript (operations ++ [op]) d₀)
      = sinceStart (transcript operations d₀) ++ [(op, (op.run.on (runAll operations d₀)).1)] := by
    rw [transcript_concat, sinceStart_concat, hbegin]
    rfl
  rw [← runAll_concat]
  -- The counter was known, and the calls that made it known are still counted.
  cases hafter : (runAll (operations ++ [op]) d₀).counters.value? name with
  | none =>
    obtain ⟨hparagraphs, hheadings, hdeclared⟩ := (value?_eq_none_iff h _ name).mp hafter
    have hnone : (runAll operations d₀).counters.value? name = none := by
      refine (value?_eq_none_iff h _ name).mpr ⟨hparagraphs, hheadings, fun call hcall => ?_⟩
      exact hdeclared call (hcalls ▸ List.mem_append_left _ hcall)
    rw [hvalue] at hnone
    cases hnone
  | some after =>
    have hsame : stepsOf name (sinceStart (transcript (operations ++ [op]) d₀))
        = stepsOf name (sinceStart (transcript operations d₀)) := by
      rw [hcalls, stepsOf, stepsOf, List.countP_append, List.countP_singleton, hstep]
      rfl
    rw [value_of_runAll h _ hafter, hsame, value_of_runAll h _ hvalue]

/-- **Counters count the steps.** After any calls on a new document, the names without a
value are those that are not built in and that no call since the last start has declared
with success. A value is the number of steps since that start, as long as the word holds it,
and a call that neither starts over nor steps the counter leaves it as it is, as every
rendering does. Numbered content is always written, with one step of its counter before the
reference to it. -/
theorem counters_count_steps {o : DocumentOptions} {d₀ : Document} (h : Document.new o = .ok d₀)
    (operations : List Operation) :
    let d := runAll operations d₀
    let calls := sinceStart (transcript operations d₀)
    (∀ name, d.counters.value? name = none ↔
      name ≠ Counters.paragraphs ∧ name ≠ Counters.headings ∧
        ∀ call ∈ calls, call.1 = .addCounter name → call.2.isOk = false) ∧
    (∀ name value, d.counters.value? name = some value → stepsOf name calls < UInt32.size →
      value.toNat = stepsOf name calls) ∧
    (∀ (op : Operation) (name : String) (value : UInt32), d.counters.value? name = some value →
      Call.begins (op, (op.run.on d).1) = false → Call.steps name (op, (op.run.on d).1) = false →
      (op.run.on d).2.counters.value? name = some value) ∧
    (∀ {σ : Type} (typesetter : Typesetter σ) (request : Session.Request) (s : σ),
      request.edit? = none →
      (Session.serve typesetter request d s).2.1.counters = d.counters) ∧
    (∀ label text : String,
      ((Operation.numberedParagraph label text).run.on d).1 = .ok .done ∧
      ((Operation.numberedParagraph label text).run.on d).2.buffer = d.buffer.append .body
        ("\\stepcounter\x7benumcount\x7d" ++ "\n\\reversemarginpar\\marginnote\x7b\\textbf\x7b"
          ++ "\\theenumcount" ++ " .\x7d\x7d[0.9cm]\\paragraph\x7b" ++ label
          ++ "\x7d\\nonfrenchspacing " ++ text ++ "\n")) ∧
    ∀ title : String,
      ((Operation.numberedHeading title).run.on d).1 = .ok .done ∧
      ((Operation.numberedHeading title).run.on d).2.buffer = d.buffer.append .body
        ("\\stepcounter\x7benumheadcount\x7d" ++ "\n\\subsubsection*\x7b\\bf ARTICLE "
          ++ "\\theenumheadcount" ++ "\\ -\\ " ++ title ++ "\x7d\n") := by
  intro d calls
  have htracks := (tracks_new h).runAll operations
  have hparagraphs : d.counters.contains Counters.paragraphs = true :=
    htracks.contains_builtIn List.mem_cons_self
  have hheadings : d.counters.contains Counters.headings = true :=
    htracks.contains_builtIn (List.mem_cons_of_mem _ List.mem_cons_self)
  refine ⟨value?_eq_none_iff h operations, ?_, fun op name value => value_kept h operations op,
    ?_, ?_, ?_⟩
  · intro name value hvalue hbound
    rw [value_of_runAll h operations hvalue, UInt32.toNat_ofNat']
    exact Nat.mod_eq_of_lt hbound
  · intro σ typesetter request s hrendering
    have hcontent := Session.content_rendering typesetter request d s hrendering
    have hcounters := congrArg counters hcontent
    exact hcounters
  · intro label text
    obtain ⟨hanswer, hbuffer, -⟩ := Effect.number_on
      (fun step number => Construct.numberedParagraph step number label text) hparagraphs
    rw [run_on, ← Construct.numberedParagraph_text]
    exact ⟨hanswer, hbuffer⟩
  · intro title
    obtain ⟨hanswer, hbuffer, -⟩ := Effect.number_on
      (fun step number => Construct.numberedHeading step number title) hheadings
    rw [run_on, ← Construct.numberedHeading_text]
    exact ⟨hanswer, hbuffer⟩

/-- A paragraph is numbered and taken back, a start is refused, and a counter is stepped
before it is declared and after: two steps of each are left. -/
theorem removed_paragraph_is_counted :
    let operations : List Operation :=
      [.stepCounter "clause", .addCounter "clause", .stepCounter "clause",
        .numberedParagraph "a" "b", .pop, .init { watermark := some { text := "#" } },
        .stepCounter "enumcount", .addCounter "clause", .stepCounter "clause"]
    let d := runAll operations (opened {} [])
    d.counters.value? "section" = none ∧
      (∃ value, d.counters.value? "clause" = some value ∧ value.toNat = 2) ∧
      ∃ value, d.counters.value? "enumcount" = some value ∧ value.toNat = 2 := by
  intro operations d
  obtain ⟨hnone, hvalue, -⟩ := counters_count_steps new_default operations
  have hcount : ∀ name ∈ ["clause", "enumcount"],
      stepsOf name (sinceStart (transcript operations (opened {} []))) = 2 := by
    decide +kernel
  have hread : ∀ name ∈ ["clause", "enumcount"], d.counters.value? name = some 2 →
      ∃ value, d.counters.value? name = some value ∧ value.toNat = 2 := by
    intro name hname hsome
    have hsteps := hcount name hname
    exact ⟨2, hsome, (hvalue name 2 hsome (by rw [hsteps]; decide)).trans hsteps⟩
  refine ⟨(hnone "section").mpr ⟨by decide, by decide, by decide +kernel⟩, ?_, ?_⟩
  · exact hread "clause" (by decide) (by decide +kernel)
  · exact hread "enumcount" (by decide) (by decide +kernel)

end Document

end Galley
