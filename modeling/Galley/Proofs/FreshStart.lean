/-
`Proofs/FreshStart.lean` -- starting over forgets the past.

A document that is started over is the new document of the options, whatever it held
before: no counter value, no redefined style and no rendering state goes over into it.
The options are refused for their first fault, which is the first special character of
the watermark or else the first colour that is none. The document keeps its options
until it is started with others, and options that a document was started with have no
fault. So going back to them cannot fail, however many calls, refused starts and broken
renderings lie between.
-/
import Galley.Proofs.History
import Galley.Proofs.Transparency

set_option autoImplicit false

namespace Galley

/-! ## The first fault of the options -/

/-- A traversal fails with the error of the first element that has one. -/
theorem mapM_error_iff {α β ε : Type} {f : α → Except ε β} {l : List α} {e : ε} :
    l.mapM f = .error e ↔ ∃ a, l.find? (fun x => !(f x).isOk) = some a ∧ f a = .error e := by
  induction l with
  | nil =>
    refine iff_of_false nofun ?_
    rintro ⟨a, h, -⟩
    cases h
  | cons x l ih =>
    rw [List.mapM_cons, List.find?_cons]
    cases hx : f x with
    | error e' =>
      constructor
      · intro h
        obtain rfl : e' = e := Except.error.inj h
        exact ⟨x, rfl, hx⟩
      · rintro ⟨a, ha, he⟩
        obtain rfl : x = a := Option.some.inj ha
        exact congrArg Except.error (Except.error.inj (hx.symm.trans he))
    | ok b =>
      have hrest : (l.mapM f >>= fun rest => pure (b :: rest)) = (.error e : Except ε (List β))
          ↔ l.mapM f = .error e := by
        cases l.mapM f with
        | error e' => exact Iff.rfl
        | ok bs => exact iff_of_false nofun nofun
      exact hrest.trans ih

/-- The character may not stand in a watermark. -/
def Watermark.isSpecial (c : Char) : Bool := specials.contains c

/-- A colour of the options that is none. -/
def ColourOverride.isRefused (c : ColourOverride) : Bool :=
  !(ColourEntry.make c.name c.value c.model).isOk

namespace DocumentOptions

/-- The options have this fault, and no other one comes before it: the watermark is
looked at first, shown or not, and the colours in order. -/
inductive FirstFault (o : DocumentOptions) : DocumentError → Prop where
  | watermark {mark : Watermark} {found : Char} (hmark : o.watermark = some mark)
      (hfound : mark.text.toList.find? Watermark.isSpecial = some found) :
      FirstFault o (.validation (.watermarkText mark.text found))
  | colour {c : ColourOverride} {cause : Registry.Error}
      (hmark : ∀ mark, o.watermark = some mark → ∀ c ∈ mark.text.toList, ¬ Watermark.isSpecial c)
      (hfirst : o.colours.find? ColourOverride.isRefused = some c)
      (hcause : ColourEntry.make c.name c.value c.model = .error cause) :
      FirstFault o (.ofRegistry cause)

end DocumentOptions

namespace Document

open DocumentOptions

/-- Colours are refused for the first of them that is none. -/
theorem overrides_error_iff (o : DocumentOptions) (e : DocumentError) :
    (overrides o).mapError DocumentError.ofRegistry = .error e ↔
      ∃ c cause, o.colours.find? ColourOverride.isRefused = some c ∧
        ColourEntry.make c.name c.value c.model = .error cause ∧ e = .ofRegistry cause := by
  have hfirst := fun cause => mapM_error_iff (l := o.colours) (e := cause)
    (f := fun c => ColourEntry.make c.name c.value c.model)
  constructor
  · intro h
    cases ho : overrides o with
    | ok entries =>
      rw [ho] at h
      cases h
    | error cause =>
      rw [ho] at h
      obtain ⟨c, hc, hcause⟩ := (hfirst cause).mp ho
      exact ⟨c, cause, hc, hcause, (Except.error.inj h).symm⟩
  · rintro ⟨c, cause, hc, hcause, rfl⟩
    have ho : overrides o = .error cause := (hfirst cause).mpr ⟨c, hc, hcause⟩
    rw [ho]
    rfl

/-- Options are refused for their first fault and for nothing else. -/
theorem admitted_error_iff (o : DocumentOptions) (e : DocumentError) :
    admitted o = .error e ↔ FirstFault o e := by
  have hcolours :
      (∀ mark, o.watermark = some mark → ∀ c ∈ mark.text.toList, ¬ Watermark.isSpecial c) →
      ((overrides o).mapError DocumentError.ofRegistry = .error e ↔ FirstFault o e) := by
    intro hplain
    rw [overrides_error_iff]
    constructor
    · rintro ⟨c, cause, hfirst, hcause, rfl⟩
      exact .colour hplain hfirst hcause
    · rintro (⟨hmark, hfound⟩ | ⟨-, hfirst, hcause⟩)
      · exact absurd (List.find?_some hfound) (hplain _ hmark _ (List.mem_of_find?_eq_some hfound))
      · exact ⟨_, _, hfirst, hcause, rfl⟩
  rw [admitted]
  cases hmark : o.watermark with
  | none =>
    refine hcolours fun mark h => ?_
    cases hmark.symm.trans h
  | some mark =>
    rw [Option.map_some, Watermark.check]
    cases hfound : mark.text.toList.find? fun c => Watermark.specials.contains c with
    | none =>
      refine hcolours fun mark' h c hc => ?_
      obtain rfl := Option.some.inj (hmark.symm.trans h)
      exact List.find?_eq_none.mp hfound c hc
    | some found =>
      constructor
      · intro h
        obtain rfl := Except.error.inj h
        exact .watermark hmark hfound
      · rintro (⟨h, hfound'⟩ | ⟨hplain, -, -⟩)
        · obtain rfl := Option.some.inj (hmark.symm.trans h)
          obtain rfl := Option.some.inj (hfound.symm.trans hfound')
          rfl
        · have hmem := List.mem_of_find?_eq_some hfound
          exact absurd (List.find?_some hfound) (hplain mark hmark _ hmem)

theorem new_error_iff (o : DocumentOptions) (e : DocumentError) :
    Document.new o = .error e ↔ FirstFault o e := by
  rw [← admitted_error_iff, new_eq]
  cases admitted o with
  | error e' => simp only [Except.map, Except.error.injEq]
  | ok entries => exact iff_of_false nofun nofun

/-- Options have a fault if there is a special character in the watermark or a colour that
is none. -/
theorem exists_firstFault_iff (o : DocumentOptions) :
    (∃ e, FirstFault o e) ↔
      (∃ mark, o.watermark = some mark ∧ ∃ c ∈ mark.text.toList, Watermark.isSpecial c) ∨
        ∃ c ∈ o.colours, ∃ cause, ColourEntry.make c.name c.value c.model = .error cause := by
  constructor
  · rintro ⟨e, ⟨hmark, hfound⟩ | ⟨-, hfirst, hcause⟩⟩
    · exact .inl ⟨_, hmark, _, List.mem_of_find?_eq_some hfound, List.find?_some hfound⟩
    · exact .inr ⟨_, List.mem_of_find?_eq_some hfirst, _, hcause⟩
  · intro h
    by_cases hspecial :
        ∃ mark, o.watermark = some mark ∧ ∃ c ∈ mark.text.toList, Watermark.isSpecial c
    · obtain ⟨mark, hmark, hc⟩ := hspecial
      obtain ⟨found, hfound⟩ := Option.isSome_iff_exists.mp (List.find?_isSome.mpr hc)
      exact ⟨_, .watermark hmark hfound⟩
    · -- Then it is the colours, and one of them comes first.
      obtain ⟨c, hc, cause, hcause⟩ := h.resolve_left hspecial
      have hrefused : c.isRefused := by
        rw [ColourOverride.isRefused, hcause]
        rfl
      obtain ⟨first, hfirst⟩ :=
        Option.isSome_iff_exists.mp (List.find?_isSome.mpr ⟨c, hc, hrefused⟩)
      cases hmake : ColourEntry.make first.name first.value first.model with
      | ok entry =>
        have hnot := List.find?_some hfirst
        rw [ColourOverride.isRefused, hmake] at hnot
        cases hnot
      | error cause' =>
        exact ⟨_, .colour (fun mark hmark c hc h => hspecial ⟨mark, hmark, c, hc, h⟩) hfirst hmake⟩

/-! ## The document and its options -/

/-- Starting over leaves a new document of the options, or nothing new. -/
theorem init_eq_new (o : DocumentOptions) (d : Document) :
    (init o).on d = match Document.new o with
      | .ok fresh => (.ok (), fresh)
      | .error e => (.error e, d) := by
  rw [init_on, new_eq]
  cases admitted o <;> rfl

/-- A document is started again like one with other content and the same options. -/
theorem reset_eq_new {d fresh : Document} (h : Document.new d.options = .ok fresh) :
    reset.on d = (.ok (), fresh) := by
  rw [reset_on, init_eq_new, h]

end Document

/-! ## The options of a history -/

namespace Edition

/-- A document can be started with the options of the edition. -/
def Admitted (edition : Edition) : Prop :=
  ∃ entries, Document.admitted edition.options = .ok entries

/-- **One call.** Only starting over replaces the options, and only by options without a
fault; what fails replaces nothing. -/
theorem Admitted.step {edition : Edition} (h : edition.Admitted) {d : Document}
    (hd : d.options = edition.options) (effect : Effect) :
    (edition.extend effect (effect.on d).1).Admitted := by
  cases effect with
  | start options =>
    rw [Effect.on, hd]
    cases ho : Document.admitted (options.getD edition.options) with
    | ok entries => exact ⟨entries, ho⟩
    | error e => exact h
  | register r => cases r <;> exact h
  | _ => exact h

/-- **A whole history.** By induction on the calls. -/
theorem Admitted.runAll {edition : Edition} (h : edition.Admitted) {d : Document}
    (hd : Tracks edition d) (operations : List Operation) :
    (edition.after (Operation.transcript operations d)).Admitted := by
  induction operations generalizing edition d with
  | nil => exact h
  | cons op operations ih =>
    have hstep := h.step hd.options op.effect
    have htracks := hd.step op.effect
    rw [← Operation.run_on] at hstep htracks
    exact ih hstep htracks

end Edition

theorem Operation.transcript_eq_zip (operations : List Operation) (d : Document) :
    transcript operations d = operations.zip ((transcript operations d).map Prod.snd) := by
  induction operations generalizing d with
  | nil => rfl
  | cons op operations ih =>
    rw [transcript, List.map_cons, List.zip_cons_cons, ← ih]

namespace Session

/-- The calls of a session and what was answered to them, renderings left out. -/
def history (requests : List Request) (replies : List Reply) :
    List (Operation × Except DocumentError Answer) :=
  (edits requests).zip (replies.filterMap Reply.edited?)

variable {σ : Type}

/-- After any session the document has the options of the last successful start, and they
have no fault. -/
theorem serveAll_options {o : DocumentOptions} {d₀ : Document} (h : Document.new o = .ok d₀)
    (typesetter : Typesetter σ) (requests : List Request) (s : σ) :
    let after := serveAll typesetter requests d₀ s
    let edition := Edition.after { options := o } (history requests after.1)
    after.2.1.options = edition.options ∧ edition.Admitted := by
  intro after edition
  obtain ⟨hreplies, hcontent⟩ := serveAll_edits typesetter requests d₀ s
  have hedition : edition
      = Edition.after { options := o } (Operation.transcript (edits requests) d₀) := by
    rw [Operation.transcript_eq_zip, ← hreplies]
    rfl
  have hnew := tracks_new h
  have hadmitted : Edition.Admitted { options := o } := by
    obtain ⟨entries, ho, -⟩ := Document.new_ok h
    exact ⟨entries, ho⟩
  rw [hedition]
  refine ⟨?_, hadmitted.runAll hnew _⟩
  -- The content has the options in it.
  have hoptions : after.2.1.content.options
      = (Operation.runAll (edits requests) d₀).content.options :=
    congrArg Document.options hcontent
  exact hoptions.trans (hnew.runAll (edits requests)).options

end Session

namespace Document

open DocumentOptions Session

/-- **Starting over forgets the past.** On any document it leaves the new document of the
options, or fails as a new document does and leaves the old one. It fails with the first
fault of the options, which have one if there is a special character in the watermark or
a colour that is none. So resetting never fails: after any session on a new document, with
refused starts and failed renderings in it, it leaves the new document of the options of
the last start that succeeded. -/
theorem starting_over_forgets_the_past :
    (∀ (o : DocumentOptions) (d : Document),
      (init o).on d = match Document.new o with
        | .ok fresh => (.ok (), fresh)
        | .error e => (.error e, d)) ∧
    (∀ (o : DocumentOptions) (e : DocumentError), Document.new o = .error e ↔ FirstFault o e) ∧
    (∀ o : DocumentOptions, (∃ e, Document.new o = .error e) ↔
      (∃ mark, o.watermark = some mark ∧ ∃ c ∈ mark.text.toList, Watermark.isSpecial c) ∨
        ∃ c ∈ o.colours, ∃ cause, ColourEntry.make c.name c.value c.model = .error cause) ∧
    ∀ {σ : Type} (typesetter : Typesetter σ) (s : σ) (requests : List Request)
      {o : DocumentOptions} {d₀ : Document}, Document.new o = .ok d₀ →
      let after := serveAll typesetter requests d₀ s
      let last := (Edition.after { options := o } (history requests after.1)).options
      ∃ fresh, Document.new last = .ok fresh ∧ reset.on after.2.1 = (.ok (), fresh) := by
  refine ⟨init_eq_new, new_error_iff, fun o => ?_, ?_⟩
  · simp only [new_error_iff]
    exact exists_firstFault_iff o
  · intro σ typesetter s requests o d₀ h after last
    obtain ⟨hoptions, entries, hadmitted⟩ := serveAll_options h typesetter requests s
    have hlast : Document.new last = .ok (opened last entries) := by
      rw [new_eq, hadmitted]
      rfl
    exact ⟨_, hlast, reset_eq_new (by rw [hoptions]; exact hlast)⟩

/-- A start that succeeds, one that is refused and a rendering that fails, then a reset. -/
theorem broken_session_is_reset :
    let started : DocumentOptions := { body := ["kept"] }
    let script : Script := { queue := [.refused (.timeout 60000)] }
    let requests : List Request :=
      [.edit (.init started), .edit (.addCounter "clause"),
        .edit (.init { watermark := some { text := "50%" } }), .toBinary .pdf]
    Document.new {} = .ok (opened {} []) ∧
      reset.on (serveAll Script.typesetter requests (opened {} []) script).2.1
        = (.ok (), opened started []) := by
  intro started script requests
  have hstarted : Document.new started = .ok (opened started []) := by
    rw [new_eq]
    rfl
  obtain ⟨fresh, hfresh, hreset⟩ :=
    starting_over_forgets_the_past.2.2.2 Script.typesetter script requests new_default
  have hlast : (Edition.after { options := {} } (history requests
      (serveAll Script.typesetter requests (opened {} []) script).1)).options = started := by
    decide +kernel
  rw [hlast, hstarted] at hfresh
  obtain rfl := Except.ok.inj hfresh
  exact ⟨new_default, hreset⟩

end Document

end Galley
