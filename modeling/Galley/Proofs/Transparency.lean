/-
`Proofs/Transparency.lean` -- rendering is transparent to editing.

The content of a document is all of it but the rendering state. No call looks at the
state, so two documents of one content answer a call alike and have one content again;
and no rendering changes the content. A session in which edits and renderings alternate
in any way is therefore, for its edits, the session of the edits alone. What reaches
the typesetter is determined in the same way: each job is the source text that the edits
before it have made, however often that text was typeset already and whatever came of it.
-/
import Galley.Press.Session
import Galley.Proofs.Effect
import Galley.Proofs.Rendering

set_option autoImplicit false

namespace Galley

/-! ## Content -/

namespace Document

/-- The document apart from its rendering state. -/
def content (d : Document) : Document := { d with state := .initialized }

variable {d d' : Document}

/-- Documents of one content differ in their states at most. -/
theorem eq_of_content (h : d.content = d'.content) : d' = { d with state := d'.state } := by
  obtain ⟨o, b, cs, ss, ms, ns, s⟩ := d
  obtain ⟨o', b', cs', ss', ms', ns', s'⟩ := d'
  simp only [content, Document.mk.injEq] at h
  obtain ⟨rfl, rfl, rfl, rfl, rfl, rfl, -⟩ := h
  rfl

theorem source_of_content (h : d.content = d'.content) : d.source = d'.source := by
  show d.content.source = d'.content.source
  rw [h]

theorem content_register (d : Document) (s : RenderState) (r : Registration) :
    (Document.register { d with state := s } r).content = (d.register r).content := by
  cases r with
  | counter name =>
    by_cases hc : d.counters.contains name = true
    · rw [register_declared hc, register_declared (d := { d with state := s }) hc]
      rfl
    · rw [register_undeclared hc, register_undeclared (d := { d with state := s }) hc]
      rfl
  | style entry => rfl
  | colour entry => rfl
  | command entry => rfl

end Document

/-- Documents of one content answer every effect alike and have one content again. -/
theorem Effect.on_content (effect : Effect) {d d' : Document} (h : d.content = d'.content) :
    (effect.on d).1 = (effect.on d').1 ∧ (effect.on d).2.content = (effect.on d').2.content := by
  rw [Document.eq_of_content h]
  generalize d'.state = s
  -- Both sides are now the same effect on `d` with two states, which nothing looks at.
  cases effect with
  | write construct => cases construct <;> exact ⟨rfl, rfl⟩
  | remove wanted => cases wanted <;> exact ⟨rfl, rfl⟩
  | advance counter =>
    rw [on, on]
    cases d.counters.step counter <;> exact ⟨rfl, rfl⟩
  | number counter construct =>
    rw [on, on]
    cases d.counters.step counter <;> exact ⟨rfl, rfl⟩
  | register r =>
    cases r with
    | ok r => exact ⟨rfl, (Document.content_register d s r).symm⟩
    | error e => exact ⟨rfl, rfl⟩
  | read answer => exact ⟨rfl, rfl⟩
  | start options =>
    rw [on, on]
    cases Document.admitted (options.getD d.options) <;> exact ⟨rfl, rfl⟩
  | snapshot => exact ⟨rfl, rfl⟩
  | settle success => exact ⟨rfl, rfl⟩

namespace Operation

/-- Documents of one content answer every call alike. -/
theorem run_content (op : Operation) {d d' : Document} (h : d.content = d'.content) :
    (op.run.on d).1 = (op.run.on d').1 ∧
      (op.run.on d).2.content = (op.run.on d').2.content := by
  rw [run_on, run_on]
  exact op.effect.on_content h

/-- The same for any number of calls. -/
theorem transcript_content (operations : List Operation) {d d' : Document}
    (h : d.content = d'.content) :
    transcript operations d = transcript operations d' ∧
      (runAll operations d).content = (runAll operations d').content := by
  induction operations generalizing d d' with
  | nil => exact ⟨rfl, h⟩
  | cons op operations ih =>
    obtain ⟨hanswer, hcontent⟩ := op.run_content h
    obtain ⟨hanswers, hrun⟩ := ih hcontent
    refine ⟨?_, hrun⟩
    rw [transcript, transcript, hanswer, hanswers]

end Operation

/-! ## Sessions of one document -/

/-- A typesetter that keeps a list of its jobs and answers as before. -/
def Typesetter.recorded {σ : Type} (typesetter : Typesetter σ) : Typesetter (σ × List Job) :=
  ⟨typesetter.name, fun job (s, received) =>
    ((typesetter.run job s).1, (typesetter.run job s).2, received ++ [job])⟩

namespace Session

variable {σ : Type}

/-- The call that a request makes, if it is no rendering. -/
def Request.edit? : Request → Option Operation
  | .edit operation => some operation
  | _ => none

theorem Request.eq_of_edit? {request : Request} {operation : Operation}
    (h : request.edit? = some operation) : request = .edit operation := by
  cases request with
  | edit op => exact congrArg Request.edit (Option.some.inj h)
  | _ => cases h

/-- The format that a request asks the typesetter for. -/
def Request.format? : Request → Option BinaryFormat
  | .edit _ => none
  | .render format => format.binary?
  | .renderForText => some .pdf
  | .toBinary format => some format

/-- What was answered to a call. -/
def Reply.edited? : Reply → Option (Except DocumentError Answer)
  | .edited result => some result
  | _ => none

/-- The calls among requests. -/
def edits (requests : List Request) : List Operation := requests.filterMap Request.edit?

/-- The requests of a list, served one after the other. -/
def serveAll (typesetter : Typesetter σ) :
    List Request → Document → σ → List Reply × Document × σ
  | [], d, s => ([], d, s)
  | request :: requests, d, s =>
    let (reply, d, s) := serve typesetter request d s
    let (replies, after) := serveAll typesetter requests d s
    (reply :: replies, after)

/-- The jobs that a document gives while it is edited: only calls change it. -/
def jobs : List Request → Document → List Job
  | [], _ => []
  | request :: requests, d =>
    match request.edit? with
    | some operation => jobs requests (operation.run.on d).2
    | none => (request.format?.map (Job.mk d.source)).toList ++ jobs requests d

section Serve

variable (typesetter : Typesetter σ) (request : Request) (d : Document) (s : σ)

/-- A rendering is one run of the typesetter on the source text, or none if it is to
source text, and changes nothing but the state of the document. -/
theorem serve_rendering (h : request.edit? = none) :
    (serve typesetter request d s).2
      = match request.format? with
        | some format =>
          ({ d with state := (typesetter.run ⟨d.source, format⟩ s).1.state },
            (typesetter.run ⟨d.source, format⟩ s).2)
        | none => (d, s) := by
  cases request with
  | edit operation => cases h
  | render format =>
    rw [serve, Request.format?]
    cases hformat : format.binary? with
    | none => simp only [Document.render, hformat]
    | some binary => simp only [Document.render, hformat, Document.materialize_eq]
  | renderForText =>
    rw [serve, Document.renderForText, Document.materialize_eq]
    rfl
  | toBinary format =>
    rw [serve, Document.toBinary_eq]
    rfl

theorem edited?_rendering (h : request.edit? = none) :
    (serve typesetter request d s).1.edited? = none := by
  cases request with
  | edit operation => cases h
  | _ => rfl

theorem content_rendering (h : request.edit? = none) :
    (serve typesetter request d s).2.1.content = d.content := by
  rw [serve_rendering typesetter request d s h]
  cases request.format? <;> rfl

theorem recorded_rendering (h : request.edit? = none) (received : List Job) :
    (serve typesetter.recorded request d (s, received)).2.2.2
      = received ++ (request.format?.map (Job.mk d.source)).toList := by
  rw [serve_rendering typesetter.recorded request d (s, received) h]
  cases request.format? with
  | none => exact (List.append_nil received).symm
  | some format => rfl

end Serve

/-- **Sessions.** What is answered to the calls of a session, and the content that it ends
with, are those of the calls alone. The induction is on the requests; a rendering leaves
another document to go on with, but one of the same content. -/
theorem serveAll_edits (typesetter : Typesetter σ) (requests : List Request) (d : Document)
    (s : σ) :
    (serveAll typesetter requests d s).1.filterMap Reply.edited?
        = (Operation.transcript (edits requests) d).map Prod.snd ∧
      (serveAll typesetter requests d s).2.1.content
        = (Operation.runAll (edits requests) d).content := by
  induction requests generalizing d s with
  | nil => exact ⟨rfl, rfl⟩
  | cons request requests ih =>
    rw [serveAll, edits]
    cases hedit : request.edit? with
    | some operation =>
      obtain rfl := Request.eq_of_edit? hedit
      obtain ⟨hreplies, hcontent⟩ := ih (operation.run.on d).2 s
      rw [List.filterMap_cons_some hedit]
      exact ⟨congrArg (List.cons _) hreplies, hcontent⟩
    | none =>
      -- The rest is served to another document, but its calls see no difference.
      have hd := content_rendering typesetter request d s hedit
      obtain ⟨hreplies, hcontent⟩ := ih (serve typesetter request d s).2.1
        (serve typesetter request d s).2.2
      obtain ⟨hanswers, hrun⟩ := Operation.transcript_content (edits requests) hd
      rw [List.filterMap_cons_none hedit]
      refine ⟨?_, hcontent.trans hrun⟩
      simp only
      rw [List.filterMap_cons_none (edited?_rendering typesetter request d s hedit), hreplies,
        hanswers, edits]

/-- The jobs follow the content. -/
theorem jobs_content (requests : List Request) {d d' : Document} (h : d.content = d'.content) :
    jobs requests d = jobs requests d' := by
  induction requests generalizing d d' with
  | nil => rfl
  | cons request requests ih =>
    rw [jobs, jobs]
    cases request.edit? with
    | some operation => exact ih (operation.run_content h).2
    | none =>
      simp only
      rw [ih h, Document.source_of_content h]

/-- What a typesetter receives in a session are the jobs of the requests. -/
theorem serveAll_jobs (typesetter : Typesetter σ) (requests : List Request) (d : Document) (s : σ)
    (received : List Job) :
    (serveAll typesetter.recorded requests d (s, received)).2.2.2
      = received ++ jobs requests d := by
  induction requests generalizing d s received with
  | nil => exact (List.append_nil received).symm
  | cons request requests ih =>
    rw [serveAll, jobs]
    cases hedit : request.edit? with
    | some operation =>
      obtain rfl := Request.eq_of_edit? hedit
      exact ih (operation.run.on d).2 s received
    | none =>
      have hd := content_rendering typesetter.recorded request d (s, received) hedit
      have hreceived := recorded_rendering typesetter request d s hedit received
      simp only
      rw [← jobs_content requests hd, ← List.append_assoc, ← hreceived]
      exact ih _ _ _

/-- Without calls in between, the source text is typeset again as it is. -/
theorem jobs_of_no_edits {requests : List Request} (d : Document) (h : edits requests = []) :
    ∀ job ∈ jobs requests d, job.source = d.source := by
  induction requests with
  | nil => exact fun job hjob => absurd hjob List.not_mem_nil
  | cons request requests ih =>
    intro job hjob
    cases hedit : request.edit? with
    | some operation =>
      rw [edits, List.filterMap_cons_some hedit] at h
      cases h
    | none =>
      rw [edits, List.filterMap_cons_none hedit] at h
      rw [jobs, hedit] at hjob
      rcases List.mem_append.mp hjob with hjob | hjob
      · obtain ⟨format, -, rfl⟩ := Option.map_eq_some_iff.mp (Option.mem_toList.mp hjob)
        rfl
      · exact ih h job hjob

/-- **Rendering is transparent to editing.** Handing over gives the typesetter the source
text and the format, and changes nothing of the document but its state, which is then
settled. Two sessions with the same calls answer them alike and end with one content,
whatever is rendered in between, by which typesetters and with which outcomes. And the
typesetter receives the source texts that the calls alone have made, so that a rendering
that is tried again is tried on the same text. -/
theorem rendering_is_transparent {σ τ : Type} (t : Typesetter σ) (u : Typesetter τ)
    (d : Document) (s : σ) (s' : τ) :
    (∀ format : BinaryFormat,
      let answer := t.run ⟨d.source, format⟩ s
      d.toBinary t format s
          = (answer.1.verdict, { d with state := answer.1.state }, answer.2) ∧
        answer.1.state ≠ .rendering) ∧
    (∀ requests requests' : List Request, edits requests = edits requests' →
      (serveAll t requests d s).1.filterMap Reply.edited?
          = (serveAll u requests' d s').1.filterMap Reply.edited? ∧
        (serveAll t requests d s).2.1.content = (serveAll u requests' d s').2.1.content) ∧
    (∀ (requests : List Request) (received : List Job),
      (serveAll t.recorded requests d (s, received)).2.2.2 = received ++ jobs requests d) ∧
    ∀ requests : List Request, edits requests = [] →
      ∀ job ∈ jobs requests d, job.source = d.source := by
  refine ⟨fun format => ⟨Document.toBinary_eq t format d s, ?_⟩, fun requests requests' h => ?_,
    fun requests received => serveAll_jobs t requests d s received,
    fun requests h => jobs_of_no_edits d h⟩
  · cases (t.run ⟨d.source, format⟩ s).1 <;> exact nofun
  · obtain ⟨hreplies, hcontent⟩ := serveAll_edits t requests d s
    obtain ⟨hreplies', hcontent'⟩ := serveAll_edits u requests' d s'
    rw [hreplies, hreplies', hcontent, hcontent', h]
    exact ⟨rfl, rfl⟩

/-- A session that is abandoned, refused and tried again, and the session of its calls. -/
theorem retried_session_is_transparent :
    let script : Script := { queue := [.stalled, .refused (.timeout 60000)] }
    let calls : List Request := [.edit (.push "text"), .edit (.addCounter "clause")]
    let retried : List Request :=
      [.edit (.push "text"), .toBinary .pdf, .render .pdf, .renderForText,
        .edit (.addCounter "clause")]
    edits retried = edits calls ∧
      (serveAll Script.typesetter retried {} script).1.filterMap Reply.edited?
        = (serveAll Script.typesetter calls {} script).1.filterMap Reply.edited? := by
  intro script calls retried
  have h : edits retried = edits calls := rfl
  exact ⟨h, ((rendering_is_transparent Script.typesetter Script.typesetter {} script script).2.1
    retried calls h).1⟩

end Session

end Galley
