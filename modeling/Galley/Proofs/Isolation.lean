/-
`Proofs/Isolation.lean` -- documents that share a typesetter do not meet in it.

All documents of a session hand their text to one typesetter, and the typesetter has a
state. With canned responses that state is a list of jobs that only grows and a table of
responses that never changes, and an answer looks at the table alone. So what a document
is, and what is answered to the requests for it, would be the same if no other document
had been there. The list of jobs is where the documents leave a common trace: it is what
the renderings to a binary format handed over, in the order of the requests.
-/
import Galley.Proofs.Transparency

set_option autoImplicit false

namespace Galley

/-- An answer looks at the responses and not at the jobs so far. -/
theorem Canned.outcome_answer {c c' : Canned} (h : c.responses = c'.responses) (job : Job) :
    (answer job c).1 = (answer job c').1 := by
  rw [answer, answer, response, response, h]

namespace Session

/-! ## Requests -/

/-- A request sees of the typesetter what it would answer to a job. -/
theorem serve_congr {σ τ : Type} {t : Typesetter σ} {u : Typesetter τ} {s : σ} {s' : τ}
    (h : ∀ job, (t.run job s).1 = (u.run job s').1) (request : Request) (d : Document) :
    (serve t request d s).1 = (serve u request d s').1 ∧
      (serve t request d s).2.1 = (serve u request d s').2.1 := by
  cases request with
  | edit operation => exact ⟨rfl, rfl⟩
  | render format =>
    rw [serve, serve, Document.render, Document.render]
    cases format.binary? with
    | none => exact ⟨rfl, rfl⟩
    | some binary =>
      simp only
      rw [Document.materialize_eq, Document.materialize_eq, h]
      exact ⟨rfl, rfl⟩
  | renderForText =>
    rw [serve, serve, Document.renderForText, Document.renderForText]
    rw [Document.materialize_eq, Document.materialize_eq, h]
    exact ⟨rfl, rfl⟩
  | toBinary format =>
    rw [serve, serve, Document.toBinary_eq, Document.toBinary_eq, h]
    exact ⟨rfl, rfl⟩

/-- What a request does to the state of the typesetter: one job, if it asks for a binary
format. -/
theorem state_serve {σ : Type} (t : Typesetter σ) (request : Request) (d : Document) (s : σ) :
    (serve t request d s).2.2
      = (request.format?.map (Job.mk d.source)).elim s fun job => (t.run job s).2 := by
  cases hedit : request.edit? with
  | some operation =>
    obtain rfl := Request.eq_of_edit? hedit
    rfl
  | none =>
    rw [serve_rendering t request d s hedit]
    cases request.format? <;> rfl

theorem responses_serve (request : Request) (d : Document) (c : Canned) :
    (serve Canned.typesetter request d c).2.2.responses = c.responses := by
  rw [state_serve]
  cases request.format? <;> rfl

theorem received_serve (request : Request) (d : Document) (c : Canned) :
    (serve Canned.typesetter request d c).2.2.received
      = c.received ++ (request.format?.map (Job.mk d.source)).toList := by
  rw [state_serve]
  cases request.format? with
  | none => exact (List.append_nil _).symm
  | some format => rfl

/-! ## Actions -/

/-- What is done in a session. -/
inductive Action where
  | create
  | ask (number : Nat) (request : Request)

variable {σ : Type}

/-- What an action answers, with the number of the document that answers, and the session
after it. A document that cannot be created and a request that finds no document change
nothing. -/
def act (s : Session σ) : Action → Option (Nat × Reply) × Session σ
  | .create =>
    match s.newDocument with
    | .ok (_, s') => (none, s')
    | .error _ => (none, s)
  | .ask number request =>
    match s.request number request with
    | some (reply, s') => (some (number, reply), s')
    | none => (none, s)

/-- What the actions of a list answer, and the session after them. -/
def actAll : List Action → Session σ → List (Nat × Reply) × Session σ
  | [], s => ([], s)
  | action :: actions, s =>
    let (reply, s) := s.act action
    let (replies, s) := actAll actions s
    (reply.toList ++ replies, s)

/-- The job that an action hands over: the text that its document has just then. -/
def job? (s : Session σ) : Action → Option Job
  | .create => none
  | .ask number request =>
    s.documents[number]?.bind fun d => request.format?.map (Job.mk d.source)

/-- The jobs that the actions of a list hand over, in order. -/
def handedOver : List Action → Session σ → List Job
  | [], _ => []
  | action :: actions, s => (s.job? action).toList ++ handedOver actions (s.act action).2

/-- The actions of a list that concern one document, which is then the only one: that it is
created, when as many as its number are there, and the requests for it. -/
def own (number : Nat) : List Action → Nat → List Action
  | [], _ => []
  | .create :: actions, created =>
    if created = number then .create :: own number actions (created + 1)
    else own number actions (created + 1)
  | .ask n request :: actions, created =>
    if n = number then .ask 0 request :: own number actions created
    else own number actions created

/-- The replies of one document. -/
def repliesTo (number : Nat) (replies : List (Nat × Reply)) : List Reply :=
  (replies.filter fun reply => reply.1 = number).map Prod.snd

/-! ## One action -/

section Act

variable {s : Session σ} {number : Nat} {request : Request}

theorem act_create_ok {d : Document} (h : Document.new s.options = .ok d) :
    s.act .create = (none, { s with documents := s.documents ++ [d] }) := by
  rw [act, newDocument, h]
  rfl

theorem act_create_error {e : DocumentError} (h : Document.new s.options = .error e) :
    s.act .create = (none, s) := by
  rw [act, newDocument, h]
  rfl

theorem act_ask_some {d : Document} (h : s.documents[number]? = some d) :
    s.act (.ask number request)
      = (some (number, (serve s.typesetter request d s.state).1),
        { s with
          state := (serve s.typesetter request d s.state).2.2
          documents := s.documents.set number (serve s.typesetter request d s.state).2.1 }) := by
  rw [act, Session.request, h]
  rfl

theorem act_ask_none (h : s.documents[number]? = none) :
    s.act (.ask number request) = (none, s) := by
  rw [act, Session.request, h]
  rfl

end Act

/-- Creating is not answered. -/
theorem reply_create (s : Session σ) : (s.act .create).1 = none := by
  rw [act]
  cases s.newDocument <;> rfl

/-- A document answers what it is asked, or there is none. -/
theorem reply_ask_other (s : Session σ) {n number : Nat} (hn : n ≠ number) (request : Request) :
    repliesTo number (s.act (.ask n request)).1.toList = [] := by
  rw [act]
  cases s.request n request with
  | none => rfl
  | some answer =>
    rw [Option.toList_some, repliesTo, List.filter_cons_of_neg (by simpa using hn)]
    rfl

theorem reply_ask_own (s : Session σ) (number : Nat) (request : Request) :
    repliesTo number (s.act (.ask number request)).1.toList
      = ((s.act (.ask number request)).1.map Prod.snd).toList := by
  rw [act]
  cases s.request number request with
  | none => rfl
  | some answer =>
    rw [Option.toList_some, repliesTo, List.filter_cons_of_pos (by simp)]
    rfl

/-! ### Any number of actions -/

theorem actAll_cons (action : Action) (actions : List Action) (s : Session σ) :
    actAll (action :: actions) s
      = ((s.act action).1.toList ++ (actAll actions (s.act action).2).1,
        (actAll actions (s.act action).2).2) := rfl

theorem repliesTo_append (number : Nat) (replies replies' : List (Nat × Reply)) :
    repliesTo number (replies ++ replies')
      = repliesTo number replies ++ repliesTo number replies' := by
  rw [repliesTo, List.filter_append, List.map_append]
  rfl

/-! ## A session and one of its documents alone -/

/-- The one more is found at the end and nowhere else. -/
theorem toList_getElem?_concat {α : Type} (l : List α) (a : α) (i : Nat) :
    (l ++ [a])[i]?.toList = if l.length = i then l[i]?.toList ++ [a] else l[i]?.toList := by
  split
  · next hi =>
    rw [← hi, List.getElem?_concat_length, List.getElem?_eq_none (Nat.le_refl _)]
    rfl
  · next hi =>
    rcases Nat.lt_or_gt_of_ne hi with hlt | hgt
    · have hlength : (l ++ [a]).length ≤ i := by
        rw [List.length_append, List.length_singleton]
        omega
      rw [List.getElem?_eq_none hlength, List.getElem?_eq_none (by omega)]
    · rw [List.getElem?_append_left hgt]

/-- The second session has of the first one the document of this number and nothing else,
and its typesetter gives the same answers. So many documents were created in the first
one, if they can be. -/
structure Isolates (number created : Nat) (whole alone : Session Canned) : Prop where
  options : alone.options = whole.options
  wholeTypesetter : whole.typesetter = Canned.typesetter
  aloneTypesetter : alone.typesetter = Canned.typesetter
  responses : alone.state.responses = whole.state.responses
  documents : alone.documents = whole.documents[number]?.toList
  created : ∀ d, Document.new whole.options = .ok d → whole.documents.length = created

namespace Isolates

variable {number created : Nat} {whole alone : Session Canned} {request : Request}

/-- The typesetter would answer any job alike in the two sessions. -/
theorem outcome (h : Isolates number created whole alone) (job : Job) :
    (alone.typesetter.run job alone.state).1 = (whole.typesetter.run job whole.state).1 := by
  rw [h.wholeTypesetter, h.aloneTypesetter]
  exact Canned.outcome_answer h.responses job

/-- A document is created: if it is the one of the number, then in both. -/
theorem create (h : Isolates number created whole alone) :
    Isolates number (created + 1) (whole.act .create).2
      (if created = number then (alone.act .create).2 else alone) := by
  cases hnew : Document.new whole.options with
  | error e =>
    -- Then no document is created in either session, and there is nothing to count.
    rw [act_create_error hnew, act_create_error (h.options ▸ hnew), ite_self]
    refine { h with created := fun d hd => ?_ }
    cases hnew.symm.trans hd
  | ok d =>
    obtain rfl := h.created d hnew
    have hlength : (whole.documents ++ [d]).length = whole.documents.length + 1 :=
      List.length_append
    rw [act_create_ok hnew, act_create_ok (h.options ▸ hnew)]
    split
    · next hnumber =>
      refine { h with documents := ?_, created := fun _ _ => hlength }
      rw [toList_getElem?_concat, if_pos hnumber, h.documents]
    · next hnumber =>
      refine { h with documents := ?_, created := fun _ _ => hlength }
      rw [toList_getElem?_concat, if_neg hnumber, h.documents]

/-- Another document is asked: nothing of this one changes, nor what the typesetter
answers. -/
theorem ask_other (h : Isolates number created whole alone) {n : Nat} (hn : n ≠ number) :
    Isolates number created (whole.act (.ask n request)).2 alone := by
  cases hd : whole.documents[n]? with
  | none =>
    rw [act_ask_none hd]
    exact h
  | some d =>
    rw [act_ask_some hd, h.wholeTypesetter]
    refine { h with wholeTypesetter := rfl, responses := ?_, documents := ?_, created := ?_ }
    · rw [responses_serve]
      exact h.responses
    · rw [List.getElem?_set_ne hn]
      exact h.documents
    · rw [List.length_set]
      exact h.created

/-- The document itself is asked: it answers alike in the two sessions. -/
theorem ask_own (h : Isolates number created whole alone) :
    Isolates number created (whole.act (.ask number request)).2 (alone.act (.ask 0 request)).2 ∧
      (alone.act (.ask 0 request)).1.map Prod.snd
        = (whole.act (.ask number request)).1.map Prod.snd := by
  have halone := h.documents
  cases hd : whole.documents[number]? with
  | none =>
    rw [hd, Option.toList_none] at halone
    have hd' : alone.documents[0]? = none := by rw [halone, List.getElem?_nil]
    rw [act_ask_none hd, act_ask_none hd']
    exact ⟨h, rfl⟩
  | some d =>
    rw [hd, Option.toList_some] at halone
    have hd' : alone.documents[0]? = some d := by rw [halone, List.getElem?_cons_zero]
    obtain ⟨hreply, hafter⟩ := serve_congr h.outcome request d
    rw [h.wholeTypesetter, h.aloneTypesetter] at hreply hafter
    rw [act_ask_some hd, act_ask_some hd', h.wholeTypesetter, h.aloneTypesetter]
    refine ⟨{ h with wholeTypesetter := rfl, aloneTypesetter := rfl, responses := ?_,
                     documents := ?_, created := ?_ }, ?_⟩
    · rw [responses_serve, responses_serve]
      exact h.responses
    · have hlt : number < whole.documents.length := (List.getElem?_eq_some_iff.mp hd).1
      rw [halone, hafter, List.getElem?_set_self hlt]
      rfl
    · rw [List.length_set]
      exact h.created
    · rw [Option.map_some, Option.map_some, hreply]

/-- **Any number of actions.** The induction is on the actions of the whole session; the
other one takes a step when the action is one of its own. -/
theorem actAll (h : Isolates number created whole alone) (actions : List Action) :
    (Session.actAll (own number actions created) alone).2.documents
        = (Session.actAll actions whole).2.documents[number]?.toList ∧
      (Session.actAll (own number actions created) alone).1.map Prod.snd
        = repliesTo number (Session.actAll actions whole).1 := by
  induction actions generalizing created whole alone with
  | nil => exact ⟨h.documents, rfl⟩
  | cons action actions ih =>
    rw [actAll_cons, repliesTo_append]
    cases action with
    | create =>
      have hnext := h.create
      rw [own, reply_create, Option.toList_none]
      split
      · next hcreated =>
        rw [if_pos hcreated] at hnext
        rw [actAll_cons, reply_create, Option.toList_none]
        exact ih hnext
      · next hcreated =>
        rw [if_neg hcreated] at hnext
        exact ih hnext
    | ask n request =>
      rw [own]
      split
      · next hn =>
        subst hn
        obtain ⟨hnext, hreply⟩ := h.ask_own
        obtain ⟨hdocuments, hreplies⟩ := ih hnext
        refine ⟨hdocuments, ?_⟩
        rw [actAll_cons, List.map_append, hreplies, reply_ask_own, ← hreply, Option.toList_map]
      · next hn =>
        rw [reply_ask_other whole hn, List.nil_append]
        exact ih (h.ask_other hn)

end Isolates

/-! ## What the typesetter sees -/

/-- One action hands over one job or none. -/
theorem received_act {s : Session Canned} (h : s.typesetter = Canned.typesetter)
    (action : Action) :
    (s.act action).2.typesetter = Canned.typesetter ∧
      (s.act action).2.state.received = s.state.received ++ (s.job? action).toList := by
  cases action with
  | create =>
    rw [job?, Option.toList_none, List.append_nil]
    cases hnew : Document.new s.options with
    | ok d =>
      rw [act_create_ok hnew]
      exact ⟨h, rfl⟩
    | error e =>
      rw [act_create_error hnew]
      exact ⟨h, rfl⟩
  | ask number request =>
    rw [job?]
    cases hd : s.documents[number]? with
    | none =>
      rw [act_ask_none hd, Option.bind_none, Option.toList_none, List.append_nil]
      exact ⟨h, rfl⟩
    | some d =>
      rw [act_ask_some hd, Option.bind_some, h]
      exact ⟨rfl, received_serve request d s.state⟩

/-- **Any number of actions.** -/
theorem received_actAll {s : Session Canned} (h : s.typesetter = Canned.typesetter)
    (actions : List Action) :
    (actAll actions s).2.state.received = s.state.received ++ handedOver actions s := by
  induction actions generalizing s with
  | nil => exact (List.append_nil _).symm
  | cons action actions ih =>
    obtain ⟨hnext, hjob⟩ := received_act h action
    rw [actAll_cons, handedOver, ← List.append_assoc, ← hjob]
    exact ih hnext

/-- **Documents of one session do not meet.** A session with canned responses in which
documents are created and asked in any order leaves each document as it would be in a
session of its own, with the same replies to what it was asked. And the typesetter has
received, in the order of the requests, the text of a document for each of its renderings
to a binary format, as the text was just then. -/
theorem documents_are_isolated (options : DocumentOptions)
    (responses : List (BinaryFormat × Response)) (actions : List Action) :
    let fresh : Session Canned :=
      { options, typesetter := Canned.typesetter, state := { responses } }
    let whole := actAll actions fresh
    (∀ number : Nat,
      let alone := actAll (own number actions 0) fresh
      alone.2.documents = whole.2.documents[number]?.toList ∧
      alone.1.map Prod.snd = repliesTo number whole.1) ∧
    whole.2.state.received = handedOver actions fresh := by
  intro fresh whole
  refine ⟨fun number => ?_, received_actAll rfl actions⟩
  have hstart : Isolates number 0 fresh fresh := ⟨rfl, rfl, rfl, rfl, rfl, fun _ _ => rfl⟩
  exact hstart.actAll actions

end Session

end Galley
