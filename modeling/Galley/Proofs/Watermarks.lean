/-
`Proofs/Watermarks.lean` -- what a watermark makes a difference to.

Two documents are started with the same options, but for a watermark that only one of them
has, and are asked for the same from then on. The one is the other with a stamp: with the
directives of the watermark at the end of its system partition, and no directives at all
if it is final. No call looks at the stamp, and resetting lays it down again, so it stays
until the document is started over with other options; then the two are one. What leaves
the documents differs by the directives in a source text at most. For final documents this
is no difference, so nobody can tell whether there is a watermark.
-/
import Galley.Proofs.FreshStart
import Galley.Proofs.Partitions

set_option autoImplicit false

namespace Galley

/-! ## Stamping -/

/-- The same options without a watermark. -/
def DocumentOptions.withoutWatermark (o : DocumentOptions) : DocumentOptions :=
  { o with watermark := none }

namespace Preamble

theorem shownWatermark_of_mark {o : DocumentOptions} {mark : Watermark}
    (hmark : o.watermark = some mark) :
    shownWatermark o = if o.isFinal then [] else watermark mark := by
  rw [shownWatermark, hmark]
  rfl

/-- What is shown of the watermark comes last. -/
theorem system_eq_shown (o : DocumentOptions) :
    system o = system o.withoutWatermark ++ shownWatermark o := by
  have hnone : shownWatermark o.withoutWatermark = [] := by
    rw [shownWatermark]
    exact ite_self _
  rw [system, system, hnone, List.append_nil]
  rfl

end Preamble

namespace Document

/-- The document with options that have a watermark: what they show of it stands at the end of the
system partition. -/
def stamp (o : DocumentOptions) (d : Document) : Document :=
  { d with
    options := o
    buffer := { d.buffer with system := d.buffer.system ++ Preamble.shownWatermark o } }

variable {o : DocumentOptions} {mark : Watermark}

theorem register_stamp (o : DocumentOptions) (d : Document) (r : Registration) :
    (d.stamp o).register r = (d.register r).stamp o := by
  cases r with
  | counter name =>
    by_cases hc : d.counters.contains name = true
    · rw [register_declared hc, register_declared (d := d.stamp o) hc]
    · rw [register_undeclared hc, register_undeclared (d := d.stamp o) hc]
      rfl
  | style entry => rfl
  | colour entry => rfl
  | command entry => rfl

/-- Starting with a watermark is starting without it and stamping the document. -/
theorem opened_eq_stamp (o : DocumentOptions) (entries : List ColourEntry) :
    opened o entries = (opened o.withoutWatermark entries).stamp o := by
  have hblank : finish o (blank o) = finish o ((blank o.withoutWatermark).stamp o) := by
    rw [blank, Preamble.system_eq_shown]
    rfl
  rw [opened, finish_foldl_register o _ hblank, List.foldl_hom (stamp o) (register_stamp o)]
  rfl

theorem admitted_withoutWatermark (hmark : o.watermark = some mark) (hcheck : mark.check = .ok ()) :
    admitted o = admitted o.withoutWatermark := by
  rw [admitted, hmark, Option.map_some, hcheck]
  rfl

/-- A new document with a watermark that may be shown, or the error that there is without it. -/
theorem new_eq_stamp (hmark : o.watermark = some mark) (hcheck : mark.check = .ok ()) :
    Document.new o = (Document.new o.withoutWatermark).map (stamp o) := by
  rw [new_eq, new_eq, admitted_withoutWatermark hmark hcheck]
  cases admitted o.withoutWatermark with
  | error e => rfl
  | ok entries => exact congrArg Except.ok (opened_eq_stamp o entries)

end Document

/-! ## Twins -/

/-- Two source texts are one, or open with the system directives of the options, with and without
the watermark, and go on alike. -/
inductive SourceStamped (o : DocumentOptions) : String → String → Prop where
  | same (text : String) : SourceStamped o text text
  | stamped (rest : List Fragment) :
    SourceStamped o (String.intercalate "\n" (Preamble.system o ++ rest))
      (String.intercalate "\n" (Preamble.system o.withoutWatermark ++ rest))

/-- Two answers are one, or are snapshots that differ in this way. -/
inductive AnswerStamped (o : DocumentOptions) :
    Except DocumentError Answer → Except DocumentError Answer → Prop where
  | same (result : Except DocumentError Answer) : AnswerStamped o result result
  | snapshot {source source' : String} (h : SourceStamped o source source') :
    AnswerStamped o (.ok (.snapshot source)) (.ok (.snapshot source'))

/-- Two jobs for one format whose source texts differ in this way. -/
structure JobStamped (o : DocumentOptions) (job job' : Job) : Prop where
  source : SourceStamped o job.source job'.source
  format : job.format = job'.format

/-- The effect has started the document over with other options, if this came of it. -/
def Effect.replaces : Effect → Except DocumentError Answer → Bool
  | .start (some _), .ok _ => true
  | _, _ => false

/-- No call of a history has replaced the options. -/
def Operation.keepsOptions (history : List (Operation × Except DocumentError Answer)) : Bool :=
  history.all fun call => !call.1.effect.replaces call.2

/-- A document and its twin that has no watermark, as long as their options are kept. They are one
document once the options were replaced. -/
inductive Twins (o : DocumentOptions) : Bool → Document → Document → Prop where
  | stamped {d : Document} (hoptions : d.options = o.withoutWatermark)
    (hsystem : d.buffer.system = Preamble.system o.withoutWatermark) : Twins o true (d.stamp o) d
  | same (d : Document) : Twins o false d d

theorem Document.source_stamp {o : DocumentOptions} {d : Document}
    (hsystem : d.buffer.system = Preamble.system o.withoutWatermark) :
    SourceStamped o (d.stamp o).source d.source := by
  have hstamp : (d.stamp o).buffer.system = Preamble.system o := by
    rw [Preamble.system_eq_shown, ← hsystem]
    rfl
  rw [source, source, Buffer.source, Buffer.source, Buffer.toList, Buffer.toList, hstamp, hsystem,
    List.append_assoc, List.append_assoc]
  exact .stamped _

namespace Effect

variable {effect : Effect}

theorem start_of_startsOver (h : effect.startsOver = true) :
    ∃ options, effect = .start options := by
  cases effect with
  | start options => exact ⟨options, rfl⟩
  | _ => cases h

theorem replaces_of_not_startsOver (h : effect.startsOver = false)
    (outcome : Except DocumentError Answer) : effect.replaces outcome = false := by
  cases effect with
  | start options => cases h
  | _ => rfl

/-- Only starting over looks at the stamp, and only a snapshot shows it. -/
theorem on_stamp {o : DocumentOptions} {d : Document} (hstart : effect.startsOver = false)
    (hsystem : d.buffer.system = Preamble.system o.withoutWatermark) :
    AnswerStamped o (effect.on (d.stamp o)).1 (effect.on d).1 ∧
      (effect.on (d.stamp o)).2 = (effect.on d).2.stamp o ∧
      (effect.on d).2.options = d.options := by
  have hcounters : (d.stamp o).counters = d.counters := rfl
  cases effect with
  | write construct => cases construct <;> exact ⟨.same _, rfl, rfl⟩
  | remove wanted => cases wanted <;> exact ⟨.same _, rfl, rfl⟩
  | advance counter =>
    rw [on, on, hcounters]
    cases d.counters.step counter <;> exact ⟨.same _, rfl, rfl⟩
  | number counter construct =>
    rw [on, on, hcounters]
    cases d.counters.step counter <;> exact ⟨.same _, rfl, rfl⟩
  | register r =>
    cases r with
    | ok r => exact ⟨.same _, Document.register_stamp o d r, d.options_register r⟩
    | error e => exact ⟨.same _, rfl, rfl⟩
  | start options => cases hstart
  | read answer => exact ⟨.same _, rfl, rfl⟩
  | snapshot => exact ⟨.snapshot (Document.source_stamp hsystem), rfl, rfl⟩
  | settle success => exact ⟨.same _, rfl, rfl⟩

end Effect

namespace Twins

variable {o : DocumentOptions} {mark : Watermark} {kept : Bool} {d d' : Document}

theorem source (h : Twins o kept d d') : SourceStamped o d.source d'.source := by
  cases h with
  | stamped hoptions hsystem => exact Document.source_stamp hsystem
  | same d => exact .same _

theorem job (h : Twins o kept d d') (format : BinaryFormat) :
    JobStamped o ⟨d.source, format⟩ ⟨d'.source, format⟩ :=
  ⟨h.source, rfl⟩

theorem withState (h : Twins o kept d d') (state : RenderState) :
    Twins o kept { d with state } { d' with state } := by
  cases h with
  | stamped hoptions hsystem => exact .stamped (d := { d' with state }) hoptions hsystem
  | same d => exact .same _

theorem of_content {e e' : Document} (h : Twins o kept d d') (he : e.content = d.content)
    (he' : e'.content = d'.content) : Twins o kept e.content e'.content := by
  rw [he, he']
  exact h.withState .initialized

/-- What is started with these options has a twin. -/
theorem opened (entries : List ColourEntry) :
    Twins o true (Document.opened o entries) (Document.opened o.withoutWatermark entries) := by
  rw [Document.opened_eq_stamp]
  exact .stamped rfl (Document.system_foldl_register _ _)

section Runs

variable (hmark : o.watermark = some mark) (hcheck : mark.check = .ok ())
include hmark hcheck

/-- **One call.** -/
theorem step (h : Twins o kept d d') (effect : Effect) :
    AnswerStamped o (effect.on d).1 (effect.on d').1 ∧
      Twins o (kept && !effect.replaces (effect.on d').1) (effect.on d).2 (effect.on d').2 := by
  cases h with
  | same d => exact ⟨.same _, .same _⟩
  | stamped hoptions hsystem =>
    cases hstart : effect.startsOver with
    | false =>
      obtain ⟨hanswer, hstamp, hkept⟩ := Effect.on_stamp hstart hsystem
      rw [hstamp, Effect.replaces_of_not_startsOver hstart]
      exact ⟨hanswer, .stamped (hkept.trans hoptions) ((Effect.system_on hstart).trans hsystem)⟩
    | true =>
      obtain ⟨options, rfl⟩ := Effect.start_of_startsOver hstart
      cases options with
      | some other =>
        simp only [Effect.on, Option.getD_some]
        cases Document.admitted other with
        | ok entries => exact ⟨.same _, .same _⟩
        | error e => exact ⟨.same _, .stamped hoptions hsystem⟩
      | none =>
        have hstamp : (d'.stamp o).options = o := rfl
        simp only [Effect.on, Option.getD_none, hstamp, hoptions,
          Document.admitted_withoutWatermark hmark hcheck]
        cases Document.admitted o.withoutWatermark with
        | ok entries => exact ⟨.same _, .opened entries⟩
        | error e => exact ⟨.same _, .stamped hoptions hsystem⟩

/-- The same for the call that has the effect. -/
theorem run (h : Twins o kept d d') (op : Operation) :
    AnswerStamped o (op.run.on d).1 (op.run.on d').1 ∧
      Twins o (kept && !op.effect.replaces (op.run.on d').1) (op.run.on d).2 (op.run.on d').2 := by
  rw [Operation.run_on, Operation.run_on]
  exact h.step hmark hcheck op.effect

/-- **Any number of calls.** By induction on the calls. -/
theorem runAll (h : Twins o kept d d') (operations : List Operation) :
    List.Forall₂ (AnswerStamped o)
        ((Operation.transcript operations d).map Prod.snd)
        ((Operation.transcript operations d').map Prod.snd) ∧
      Twins o (kept && Operation.keepsOptions (Operation.transcript operations d'))
        (Operation.runAll operations d) (Operation.runAll operations d') := by
  induction operations generalizing kept d d' with
  | nil =>
    rw [Operation.transcript, Operation.transcript, Operation.keepsOptions, List.all_nil,
      Bool.and_true]
    exact ⟨.nil, h⟩
  | cons op operations ih =>
    obtain ⟨hanswer, hstep⟩ := h.run hmark hcheck op
    obtain ⟨hanswers, hrun⟩ := ih hstep
    rw [Bool.and_assoc] at hrun
    exact ⟨.cons hanswer hanswers, hrun⟩

end Runs

end Twins

/-! ## Sessions -/

namespace Session

variable {o : DocumentOptions} {mark : Watermark} {kept : Bool} {d d' : Document}

/-- What two typesetters receive differs by the stamp. -/
theorem jobs_twins (hmark : o.watermark = some mark) (hcheck : mark.check = .ok ())
    (h : Twins o kept d d') (requests : List Request) :
    List.Forall₂ (JobStamped o) (jobs requests d) (jobs requests d') := by
  induction requests generalizing kept d d' with
  | nil => exact .nil
  | cons request requests ih =>
    rw [jobs, jobs]
    cases request.edit? with
    | some operation => exact ih (h.run hmark hcheck operation).2
    | none =>
      cases request.format? with
      | none => exact ih h
      | some format => exact .cons (h.job format) (ih h)

/-- Two replies are one, or differ by the stamp of a snapshot or of a rendering to source text. -/
inductive ReplyStamped (o : DocumentOptions) : Reply → Reply → Prop where
  | same (reply : Reply) : ReplyStamped o reply reply
  | edited {result result' : Except DocumentError Answer} (h : AnswerStamped o result result') :
    ReplyStamped o (.edited result) (.edited result')
  | source {source source' : String} (h : SourceStamped o source source') :
    ReplyStamped o (.artifact (.delivered ⟨.source, Text.Utf8.encode source⟩))
      (.artifact (.delivered ⟨.source, Text.Utf8.encode source'⟩))

/-- If the source texts that they are handed differ by the stamp at most, the typesetters answer
alike in corresponding states, and are in corresponding states again. -/
def AnswerAlike {σ τ : Type} (o : DocumentOptions) (corresponds : σ → τ → Prop)
    (t : Typesetter σ) (u : Typesetter τ) : Prop :=
  ∀ job job' s s', JobStamped o job job' → corresponds s s' →
    (t.run job s).1 = (u.run job' s').1 ∧ corresponds (t.run job s).2 (u.run job' s').2

section Alike

variable {σ τ : Type} {corresponds : σ → τ → Prop} {t : Typesetter σ} {u : Typesetter τ} {s : σ}
  {s' : τ}

/-- **One rendering.** -/
theorem rendering_twins (halike : AnswerAlike o corresponds t u)
    (h : Twins o kept d d') (hs : corresponds s s') {request : Request}
    (hedit : request.edit? = none) :
    ReplyStamped o (serve t request d s).1 (serve u request d' s').1 ∧
      Twins o kept (serve t request d s).2.1 (serve u request d' s').2.1 ∧
      corresponds (serve t request d s).2.2 (serve u request d' s').2.2 := by
  have hrun (format : BinaryFormat) := halike _ _ _ _ (h.job format) hs
  have hmaterialize (format : BinaryFormat) :
      (d.materialize t format s).1 = (d'.materialize u format s').1 ∧
        Twins o kept (d.materialize t format s).2.1 (d'.materialize u format s').2.1 ∧
        corresponds (d.materialize t format s).2.2 (d'.materialize u format s').2.2 := by
    rw [Document.materialize_eq, Document.materialize_eq, (hrun format).1]
    exact ⟨rfl, h.withState _, (hrun format).2⟩
  cases request with
  | edit operation => cases hedit
  | render format =>
    rw [serve, serve, Document.render, Document.render]
    cases format.binary? with
    | none => exact ⟨.source h.source, h, hs⟩
    | some binary =>
      obtain ⟨hverdict, hafter⟩ := hmaterialize binary
      refine ⟨?_, hafter⟩
      simp only [hverdict]
      exact .same _
  | renderForText =>
    obtain ⟨hverdict, hafter⟩ := hmaterialize .pdf
    refine ⟨?_, hafter⟩
    simp only [serve, Document.renderForText, hverdict]
    exact .same _
  | toBinary format =>
    rw [serve, serve, Document.toBinary_eq, Document.toBinary_eq, (hrun format).1]
    exact ⟨.same _, h.withState _, (hrun format).2⟩

/-- **Any number of requests.** By induction on the requests. -/
theorem serveAll_twins (hmark : o.watermark = some mark) (hcheck : mark.check = .ok ())
    (halike : AnswerAlike o corresponds t u) (h : Twins o kept d d')
    (hs : corresponds s s') (requests : List Request) :
    let after := serveAll t requests d s
    let after' := serveAll u requests d' s'
    List.Forall₂ (ReplyStamped o) after.1 after'.1 ∧
      Twins o (kept && Operation.keepsOptions (Operation.transcript (edits requests) d'))
        after.2.1 after'.2.1 ∧
      corresponds after.2.2 after'.2.2 := by
  intro after after'
  induction requests generalizing kept d d' s s' with
  | nil =>
    refine ⟨.nil, ?_, hs⟩
    show Twins o (kept && true) d d'
    rwa [Bool.and_true]
  | cons request requests ih =>
    cases hedit : request.edit? with
    | some operation =>
      obtain rfl := Request.eq_of_edit? hedit
      obtain ⟨hanswer, hstep⟩ := h.run hmark hcheck operation
      obtain ⟨hreplies, htwins, hstates⟩ := ih hstep hs
      rw [Bool.and_assoc] at htwins
      exact ⟨.cons (.edited hanswer) hreplies, htwins, hstates⟩
    | none =>
      obtain ⟨hreply, hrendered, hrun⟩ := rendering_twins halike h hs hedit
      obtain ⟨hreplies, htwins, hstates⟩ := ih hrendered hrun
      -- The calls of the rest see no difference between the documents before and after it.
      have hcontent := content_rendering u request d' s' hedit
      rw [(Operation.transcript_content (edits requests) hcontent).1] at htwins
      rw [edits, List.filterMap_cons_none hedit]
      exact ⟨.cons hreply hreplies, htwins, hstates⟩

end Alike

end Session

/-! ## Nothing is shown -/

section Nothing

variable {o : DocumentOptions} {d d' : Document}

theorem SourceStamped.eq (hshown : Preamble.shownWatermark o = []) {source source' : String}
    (h : SourceStamped o source source') : source = source' := by
  cases h with
  | same text => rfl
  | stamped rest => rw [Preamble.system_eq_shown, hshown, List.append_nil]

theorem AnswerStamped.eq (hshown : Preamble.shownWatermark o = [])
    {result result' : Except DocumentError Answer} (h : AnswerStamped o result result') :
    result = result' := by
  cases h with
  | same result => rfl
  | snapshot h => rw [h.eq hshown]

theorem JobStamped.eq (hshown : Preamble.shownWatermark o = []) {job job' : Job}
    (h : JobStamped o job job') : job = job' := by
  obtain ⟨source, format⟩ := job
  obtain ⟨source', format'⟩ := job'
  obtain rfl : format = format' := h.format
  exact congrArg (Job.mk · format) (h.source.eq hshown)

theorem Session.ReplyStamped.eq (hshown : Preamble.shownWatermark o = [])
    {reply reply' : Session.Reply} (h : Session.ReplyStamped o reply reply') :
    reply = reply' := by
  cases h with
  | same reply => rfl
  | edited h => rw [h.eq hshown]
  | source h => rw [h.eq hshown]

/-- Twins are the same but for their options. -/
theorem Twins.eq_withOptions (hshown : Preamble.shownWatermark o = []) {kept : Bool}
    (h : Twins o kept d d') : d = { d' with options := d.options } := by
  cases h with
  | stamped hoptions hsystem => rw [Document.stamp, hshown, List.append_nil]
  | same d => rfl

/-- No typesetter makes a difference where there is none. -/
theorem Session.answerAlike_self (hshown : Preamble.shownWatermark o = []) {σ : Type}
    (t : Typesetter σ) : Session.AnswerAlike o Eq t t := by
  rintro job job' s s' hjob rfl
  obtain rfl := hjob.eq hshown
  exact ⟨rfl, rfl⟩

theorem eq_of_forall₂ {α : Type} {related : α → α → Prop} {l l' : List α}
    (heq : ∀ {a a'}, related a a' → a = a') (h : List.Forall₂ related l l') : l = l' :=
  List.forall₂_eq_eq_eq ▸ h.imp fun _ _ => heq

end Nothing

/-! ## Two documents -/

namespace Document

open Session

variable {o : DocumentOptions} {mark : Watermark} {d d' : Document}

/-- Whatever is done to the first document and to the second one, the first is the twin that has
the watermark of the options. Answers, and jobs for any two typesetters, differ by the stamp at
most. If the typesetters make no difference there, replies do not differ otherwise, and the
rendering states are the same. -/
structure DifferByStamp (o : DocumentOptions) (d d' : Document) : Prop where
  calls : ∀ operations : List Operation,
    List.Forall₂ (AnswerStamped o)
        ((Operation.transcript operations d).map Prod.snd)
        ((Operation.transcript operations d').map Prod.snd) ∧
      Twins o (Operation.keepsOptions (Operation.transcript operations d'))
        (Operation.runAll operations d) (Operation.runAll operations d')
  handovers : ∀ {σ τ : Type} (t : Typesetter σ) (u : Typesetter τ) (s : σ) (s' : τ)
    (requests : List Request),
    let after := serveAll t.recorded requests d (s, [])
    let after' := serveAll u.recorded requests d' (s', [])
    List.Forall₂ (JobStamped o) after.2.2.2 after'.2.2.2 ∧
      Twins o (Operation.keepsOptions (Operation.transcript (edits requests) d'))
        after.2.1.content after'.2.1.content
  renderings : ∀ {σ τ : Type} (t : Typesetter σ) (u : Typesetter τ) (s : σ) (s' : τ)
    (corresponds : σ → τ → Prop),
    AnswerAlike o corresponds t u → corresponds s s' →
    ∀ requests : List Request,
      let after := serveAll t requests d s
      let after' := serveAll u requests d' s'
      List.Forall₂ (ReplyStamped o) after.1 after'.1 ∧
        Twins o (Operation.keepsOptions (Operation.transcript (edits requests) d'))
          after.2.1 after'.2.1 ∧
        corresponds after.2.2 after'.2.2

/-- Nobody can tell the two documents apart: not by the answers to any calls, and not by the
replies in any session, by the jobs for the typesetter or by the state that they leave it in. All
the while the documents are the same but for the options that they keep. -/
structure Indistinguishable (d d' : Document) : Prop where
  calls : ∀ operations : List Operation,
    let after := Operation.runAll operations d
    let after' := Operation.runAll operations d'
    Operation.transcript operations d = Operation.transcript operations d' ∧
      after.source = after'.source ∧ after = { after' with options := after.options }
  sessions : ∀ {σ : Type} (t : Typesetter σ) (s : σ) (requests : List Request),
    let after := serveAll t.recorded requests d (s, [])
    let after' := serveAll t.recorded requests d' (s, [])
    after.1 = after'.1 ∧ after.2.2 = after'.2.2 ∧ after.2.1.source = after'.2.1.source ∧
      after.2.1 = { after'.2.1 with options := after.2.1.options }

theorem differByStamp_of_twins (hmark : o.watermark = some mark) (hcheck : mark.check = .ok ())
    (h : Twins o true d d') : DifferByStamp o d d' where
  calls operations := h.runAll hmark hcheck operations
  handovers t u s s' requests := by
    intro after after'
    have hcontent : after.2.1.content = (Operation.runAll (edits requests) d).content :=
      (serveAll_edits t.recorded requests d (s, [])).2
    have hcontent' : after'.2.1.content = (Operation.runAll (edits requests) d').content :=
      (serveAll_edits u.recorded requests d' (s', [])).2
    refine ⟨?_, ((h.runAll hmark hcheck (edits requests)).2).of_content hcontent hcontent'⟩
    rw [serveAll_jobs, serveAll_jobs]
    exact jobs_twins hmark hcheck h requests
  renderings t u s s' corresponds halike hs requests :=
    serveAll_twins hmark hcheck halike h hs requests

/-- A stamp without directives is none. -/
theorem DifferByStamp.indistinguishable (h : DifferByStamp o d d')
    (hshown : Preamble.shownWatermark o = []) : Indistinguishable d d' := by
  constructor
  · intro operations after after'
    obtain ⟨hanswers, htwins⟩ := h.calls operations
    refine ⟨?_, htwins.source.eq hshown, htwins.eq_withOptions hshown⟩
    rw [Operation.transcript_eq_zip operations d, Operation.transcript_eq_zip operations d',
      eq_of_forall₂ (AnswerStamped.eq hshown) hanswers]
  · intro σ t s requests after after'
    obtain ⟨hreplies, htwins, hstates⟩ := h.renderings t.recorded t.recorded (s, []) (s, []) Eq
      (answerAlike_self hshown t.recorded) rfl requests
    exact ⟨eq_of_forall₂ (ReplyStamped.eq hshown) hreplies, hstates, htwins.source.eq hshown,
      htwins.eq_withOptions hshown⟩

/-- **The watermark is the only difference.** Options with a watermark that passes its check are
refused for what they are refused for without it, or give the same new document but for the
stamp. If they are final, nobody can tell the two documents apart. If they are for a draft, the
stamp is the three directives, with which the system partition of the options ends, and whatever
is done to the two documents, they differ by the stamp. -/
theorem watermark_is_the_only_difference {o : DocumentOptions} {mark : Watermark}
    (hmark : o.watermark = some mark) (hcheck : mark.check = .ok ()) :
    Document.new o = (Document.new o.withoutWatermark).map (stamp o) ∧
    ∀ d₀ : Document, Document.new o.withoutWatermark = .ok d₀ →
      (o.isFinal = true → Indistinguishable (d₀.stamp o) d₀) ∧
      (o.isFinal = false →
        Preamble.shownWatermark o
            = [Tex.command "usepackage" ["draftwatermark"],
              Tex.command "SetWatermarkText" [mark.text],
              Tex.command "SetWatermarkScale" [mark.scale.text]] ∧
          Preamble.system o = Preamble.system o.withoutWatermark ++ Preamble.shownWatermark o ∧
          DifferByStamp o (d₀.stamp o) d₀) := by
  refine ⟨new_eq_stamp hmark hcheck, fun d₀ hnew => ?_⟩
  obtain ⟨entries, -, rfl⟩ := new_ok hnew
  have htwins := Twins.opened (o := o) entries
  rw [opened_eq_stamp] at htwins
  have hdiffer := differByStamp_of_twins hmark hcheck htwins
  have hshown := Preamble.shownWatermark_of_mark hmark
  constructor
  · intro hfinal
    rw [hfinal] at hshown
    exact hdiffer.indistinguishable hshown
  · intro hdraft
    rw [hdraft] at hshown
    exact ⟨hshown, Preamble.system_eq_shown o, hdiffer⟩

/-- A final document that is reset and then rendered, once with a failure, and a draft that is
edited, reset, refused another start and edited again. -/
theorem reset_keeps_the_watermark :
    let mark : Watermark := { text := "DRAFT" }
    let final : DocumentOptions := { isFinal := true, watermark := some mark }
    let draft : DocumentOptions := { watermark := some mark }
    let script : Script := { queue := [.refused (.timeout 60000)] }
    let requests : List Request :=
      [.edit (.push "text"), .edit .reset, .render .source, .toBinary .pdf, .toBinary .dvi]
    let operations : List Operation :=
      [.push "text", .reset, .init { watermark := some { text := "50%" } }, .push "other"]
    (serveAll Script.typesetter.recorded requests (opened final []) (script, [])).1
        = (serveAll Script.typesetter.recorded requests (opened { isFinal := true } [])
            (script, [])).1 ∧
      Twins draft true (Operation.runAll operations (opened draft []))
        (Operation.runAll operations (opened {} [])) := by
  intro mark final draft script requests operations
  have hnew (o : DocumentOptions) (ho : admitted o = .ok []) :
      Document.new o = .ok (opened o []) := by
    rw [new_eq, ho]
    rfl
  have hcheck : mark.check = .ok () := by decide
  have hfinal := ((watermark_is_the_only_difference (o := final) rfl hcheck).2 _
    (hnew final.withoutWatermark rfl)).1 rfl
  have hdraft := ((watermark_is_the_only_difference (o := draft) rfl hcheck).2 _
    (hnew draft.withoutWatermark rfl)).2 rfl
  rw [← opened_eq_stamp] at hfinal hdraft
  have hkept : Operation.keepsOptions
      (Operation.transcript operations (opened {} [])) = true := by
    decide +kernel
  refine ⟨(hfinal.sessions Script.typesetter script requests).1, ?_⟩
  rw [← hkept]
  exact (hdraft.2.2.calls operations).2

end Document

end Galley
