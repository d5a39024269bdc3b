/-
`Proofs/Acceptance.lean` -- which configurations are usable, and what comes of one that is.

A session is started once and hands out documents for as long as it lives. What could be
wrong with the options is found out when it starts, by a document that is then thrown away,
and no request to any document changes the options. So the check that was made once holds
for every later document. What the check accepts is said here by the characters of the
texts and the colours alone, and a refusal is the first fault in the order of the checks.
-/
import Galley.Proofs.FreshStart
import Galley.Proofs.Isolation
import Galley.Proofs.Trimming

set_option autoImplicit false

namespace Galley

/-! ## Usable settings -/

namespace Text

theorem trimBlanks_eq_nil_iff {cs : List Char} : trimBlanks cs = [] ↔ Blank cs := by
  constructor
  · intro h
    obtain ⟨before, after, hbefore, hafter, hcs⟩ := exists_blanks cs
    rw [h, List.append_nil] at hcs
    rw [hcs]
    exact fun c hc => (List.mem_append.mp hc).elim (hbefore c) (hafter c)
  · intro h
    rw [trimBlanks_eq, List.dropWhile_eq_nil_iff.mpr h, List.rdropWhile_nil]

end Text

namespace EngineSettings

/-- A letter, a digit, a hyphen or an underscore, all of ASCII. -/
def IsJobCharacter (c : Char) : Prop :=
  ('a' ≤ c ∧ c ≤ 'z') ∨ ('A' ≤ c ∧ c ≤ 'Z') ∨ ('0' ≤ c ∧ c ≤ '9') ∨ c = '-' ∨ c = '_'

/-- A name of such characters, and not the empty one. -/
def IsStem (name : String) : Prop := name ≠ "" ∧ ∀ c ∈ name.toList, IsJobCharacter c

/-- There is something to run, some time for it and a name for its files. -/
structure Usable (s : EngineSettings) : Prop where
  program : ∃ c ∈ s.program.toList, Text.isBlank c = false
  time : 1 ≤ s.timeoutSeconds.toNat
  name : IsStem s.jobName

/-- The settings have this fault, and no other one comes before it. -/
inductive FirstFault (s : EngineSettings) : ConfigFault → Prop where
  | noProgram (hprogram : Text.Blank s.program.toList) : FirstFault s .noProgram
  | noTime (hprogram : ¬ Text.Blank s.program.toList) (htime : s.timeoutSeconds.toNat = 0) :
      FirstFault s .noTime
  | jobName (hprogram : ¬ Text.Blank s.program.toList) (htime : s.timeoutSeconds.toNat ≠ 0)
      (hname : ¬ IsStem s.jobName) : FirstFault s (.jobName s.jobName)

theorem isJobCharacter_iff (c : Char) :
    (c.isAlphanum || c = '-' || c = '_') = true ↔ IsJobCharacter c := by
  have hlower : c.isLower = true ↔ 'a' ≤ c ∧ c ≤ 'z' :=
    Bool.and_eq_true_iff.trans (and_congr decide_eq_true_iff decide_eq_true_iff)
  have hupper : c.isUpper = true ↔ 'A' ≤ c ∧ c ≤ 'Z' := decide_eq_true_iff
  have hdigit : c.isDigit = true ↔ '0' ≤ c ∧ c ≤ '9' :=
    Bool.and_eq_true_iff.trans (and_congr decide_eq_true_iff decide_eq_true_iff)
  have halphanum : c.isAlphanum = true ↔
      (c.isUpper = true ∨ c.isLower = true) ∨ c.isDigit = true :=
    Bool.or_eq_true_iff.trans (or_congr Bool.or_eq_true_iff Iff.rfl)
  rw [Bool.or_eq_true_iff, Bool.or_eq_true_iff, halphanum, hlower, hupper, hdigit,
    decide_eq_true_iff, decide_eq_true_iff, IsJobCharacter]
  -- The same ranges in another order.
  grind

theorem isJobName_iff (name : String) : PressConfig.isJobName name = true ↔ IsStem name := by
  simp only [PressConfig.isJobName, Bool.and_eq_true, Bool.not_eq_true', ← Bool.not_eq_true,
    String.isEmpty_iff, List.all_eq_true, isJobCharacter_iff, IsStem, ne_eq]

theorem blank_program_iff (s : EngineSettings) :
    (Text.trim s.program).isEmpty = true ↔ Text.Blank s.program.toList := by
  rw [String.isEmpty_iff, Text.trim, String.ofList_eq_empty_iff, Text.trimBlanks_eq_nil_iff]

theorem exists_not_blank_iff (s : EngineSettings) :
    (∃ c ∈ s.program.toList, Text.isBlank c = false) ↔ ¬ Text.Blank s.program.toList := by
  simp only [Text.Blank, not_forall, exists_prop, Bool.not_eq_true]

theorem noTime_iff (s : EngineSettings) : s.timeoutSeconds = 0 ↔ s.timeoutSeconds.toNat = 0 :=
  UInt64.toNat_inj.symm

theorem usable_iff (s : EngineSettings) :
    s.Usable ↔
      ¬ Text.Blank s.program.toList ∧ s.timeoutSeconds.toNat ≠ 0 ∧ IsStem s.jobName := by
  rw [← exists_not_blank_iff, ← Nat.one_le_iff_ne_zero]
  exact ⟨fun h => ⟨h.program, h.time, h.name⟩, fun h => ⟨h.1, h.2.1, h.2.2⟩⟩

variable {s : EngineSettings} {fault : ConfigFault}

theorem usable_or_fault (s : EngineSettings) : s.Usable ∨ ∃ fault, s.FirstFault fault := by
  rw [usable_iff]
  by_cases hprogram : Text.Blank s.program.toList
  · exact .inr ⟨_, .noProgram hprogram⟩
  by_cases htime : s.timeoutSeconds.toNat = 0
  · exact .inr ⟨_, .noTime hprogram htime⟩
  by_cases hname : IsStem s.jobName
  · exact .inl ⟨hprogram, htime, hname⟩
  · exact .inr ⟨_, .jobName hprogram htime hname⟩

theorem FirstFault.checkEngine_eq (h : s.FirstFault fault) :
    PressConfig.checkEngine s = .error fault := by
  rw [PressConfig.checkEngine]
  obtain hprogram | ⟨hprogram, htime⟩ | ⟨hprogram, htime, hname⟩ := h
  · rw [if_pos (s.blank_program_iff.mpr hprogram)]
  · rw [if_neg (mt s.blank_program_iff.mp hprogram), if_pos (s.noTime_iff.mpr htime)]
  · rw [if_neg (mt s.blank_program_iff.mp hprogram), if_neg (mt s.noTime_iff.mp htime),
      if_neg (mt (isJobName_iff _).mp hname)]

theorem Usable.checkEngine_eq (h : s.Usable) : PressConfig.checkEngine s = .ok () := by
  obtain ⟨hprogram, htime, hname⟩ := s.usable_iff.mp h
  rw [PressConfig.checkEngine, if_neg (mt s.blank_program_iff.mp hprogram),
    if_neg (mt s.noTime_iff.mp htime), if_pos ((isJobName_iff _).mpr hname)]

/-- Settings are refused for their first fault and for nothing else. -/
theorem checkEngine_error_iff (s : EngineSettings) (fault : ConfigFault) :
    PressConfig.checkEngine s = .error fault ↔ s.FirstFault fault := by
  refine ⟨fun h => ?_, FirstFault.checkEngine_eq⟩
  obtain husable | ⟨found, hfound⟩ := s.usable_or_fault
  · cases husable.checkEngine_eq.symm.trans h
  · obtain rfl := Except.error.inj (hfound.checkEngine_eq.symm.trans h)
    exact hfound

theorem checkEngine_ok_iff (s : EngineSettings) :
    PressConfig.checkEngine s = .ok () ↔ s.Usable := by
  refine ⟨fun h => ?_, Usable.checkEngine_eq⟩
  obtain husable | ⟨found, hfound⟩ := s.usable_or_fault
  · exact husable
  · cases hfound.checkEngine_eq.symm.trans h

end EngineSettings

/-! ## Usable options -/

namespace DocumentOptions

/-- The watermark has no special character, shown or not, and every colour is one. -/
structure Usable (o : DocumentOptions) : Prop where
  watermark : ∀ mark, o.watermark = some mark → ∀ c ∈ mark.text.toList, c ∉ Watermark.specials
  colours : ∀ c ∈ o.colours, ∃ entry, ColourEntry.make c.name c.value c.model = .ok entry

/-- A document starts with usable options and with no others. -/
theorem new_ok_iff (o : DocumentOptions) : (∃ d, Document.new o = .ok d) ↔ o.Usable := by
  have hfault : (∃ d, Document.new o = .ok d) ↔ ¬ ∃ e, Document.new o = .error e := by
    cases Document.new o with
    | ok d => exact iff_of_true ⟨d, rfl⟩ nofun
    | error e => exact iff_of_false nofun (not_not_intro ⟨e, rfl⟩)
  have hmade : ∀ c : ColourOverride,
      (∃ entry, ColourEntry.make c.name c.value c.model = .ok entry) ↔
        ¬ ∃ cause, ColourEntry.make c.name c.value c.model = .error cause := by
    intro c
    cases ColourEntry.make c.name c.value c.model with
    | ok entry => exact iff_of_true ⟨entry, rfl⟩ nofun
    | error cause => exact iff_of_false nofun (not_not_intro ⟨cause, rfl⟩)
  simp only [Document.new_error_iff, Document.exists_firstFault_iff] at hfault
  rw [hfault, not_or]
  constructor
  · rintro ⟨hmark, hcolours⟩
    refine ⟨fun mark h c hc hspecial => hmark ⟨mark, h, c, hc, ?_⟩, fun c hc => ?_⟩
    · exact List.contains_iff_mem.mpr hspecial
    · exact (hmade c).mpr fun h => hcolours ⟨c, hc, h⟩
  · rintro ⟨hmark, hcolours⟩
    refine ⟨?_, ?_⟩
    · rintro ⟨mark, h, c, hc, hspecial⟩
      exact hmark mark h c hc (List.contains_iff_mem.mp hspecial)
    · rintro ⟨c, hc, h⟩
      exact (hmade c).mp (hcolours c hc) h

end DocumentOptions

/-! ## Sessions -/

namespace Session

variable {σ : Type}

/-- No action changes what documents are started with. -/
theorem options_act (s : Session σ) (action : Action) : (s.act action).2.options = s.options := by
  cases action with
  | create =>
    cases hnew : Document.new s.options with
    | ok d => rw [act_create_ok hnew]
    | error e => rw [act_create_error hnew]
  | ask number request =>
    cases hd : s.documents[number]? with
    | some d => rw [act_ask_some hd]
    | none => rw [act_ask_none hd]

/-- **Any number of actions.** -/
theorem options_actAll (actions : List Action) (s : Session σ) :
    (actAll actions s).2.options = s.options := by
  induction actions generalizing s with
  | nil => rfl
  | cons action actions ih => rw [actAll_cons, ih, options_act]

/-- Whatever was done in the session, a document can be added to it, and it is the new document
of these options. -/
def HandsOut (s : Session σ) (o : DocumentOptions) : Prop :=
  ∀ actions : List Action, ∃ d number after, Document.new o = .ok d ∧
    (actAll actions s).2.newDocument = .ok (number, after) ∧ after.documents[number]? = some d

/-- A session that could start hands out documents from then on. -/
theorem handsOut_of_new {s : Session σ} {d : Document} (h : Document.new s.options = .ok d) :
    s.HandsOut s.options := by
  intro actions
  have hlater : Document.new (actAll actions s).2.options = .ok d := by
    rw [options_actAll, h]
  rw [newDocument, hlater]
  exact ⟨d, _, _, h, rfl, List.getElem?_concat_length⟩

end Session

namespace PressConfig

/-- The configuration has this fault, and no other one comes before it: the settings of the
engine are looked at first. -/
inductive FirstFault (c : PressConfig) : PressError → Prop where
  | engine {fault : ConfigFault} (h : c.engine.FirstFault fault) : FirstFault c (.config fault)
  | document {cause : DocumentError} (hengine : c.engine.Usable)
      (h : c.document.FirstFault cause) : FirstFault c (.document cause)

section Session

variable {σ : Type} (c : PressConfig) (typesetter : Typesetter σ) (state : σ) (host : Host)
  (launch : Invocation → Launch)

theorem sessionWith_eq :
    c.sessionWith typesetter state = match Document.new c.document with
      | .ok _ => .ok { options := c.document, typesetter, state }
      | .error cause => .error (.document cause) := by
  rw [sessionWith, Session.start]
  cases Document.new c.document <;> rfl

theorem session_eq :
    c.session host launch = match checkEngine c.engine with
      | .ok () => c.sessionWith (c.engine.typesetter host launch) ()
      | .error fault => .error (.config fault) := by
  rw [session]
  cases checkEngine c.engine <;> rfl

/-- Any other typesetter is used as it is, with the options of the configuration. -/
theorem sessionWith_ok_iff (s : Session σ) :
    c.sessionWith typesetter state = .ok s ↔
      c.document.Usable ∧ s = { options := c.document, typesetter, state } := by
  rw [sessionWith_eq, ← DocumentOptions.new_ok_iff]
  cases Document.new c.document with
  | ok d =>
    refine ⟨fun h => ⟨⟨d, rfl⟩, (Except.ok.inj h).symm⟩, ?_⟩
    rintro ⟨-, rfl⟩
    rfl
  | error cause => exact iff_of_false nofun fun h => nomatch h.1

theorem sessionWith_error_iff (e : PressError) :
    c.sessionWith typesetter state = .error e ↔
      ∃ cause, c.document.FirstFault cause ∧ e = .document cause := by
  simp only [sessionWith_eq, ← Document.new_error_iff]
  cases Document.new c.document with
  | ok d => exact iff_of_false nofun fun ⟨_, h, _⟩ => nomatch h
  | error cause =>
    constructor
    · intro h
      exact ⟨cause, rfl, (Except.error.inj h).symm⟩
    · rintro ⟨found, hfound, rfl⟩
      obtain rfl := Except.error.inj hfound
      rfl

theorem session_ok_iff (s : Session Unit) :
    c.session host launch = .ok s ↔
      c.engine.Usable ∧ c.sessionWith (c.engine.typesetter host launch) () = .ok s := by
  rw [session_eq, ← EngineSettings.checkEngine_ok_iff]
  cases checkEngine c.engine with
  | ok u => exact (and_iff_right rfl).symm
  | error fault => exact iff_of_false nofun fun h => nomatch h.1

/-- A configuration is refused for its first fault and for nothing else. -/
theorem session_error_iff (e : PressError) :
    c.session host launch = .error e ↔ c.FirstFault e := by
  rw [session_eq]
  cases hengine : checkEngine c.engine with
  | error fault =>
    constructor
    · intro h
      obtain rfl := Except.error.inj h
      exact .engine ((c.engine.checkEngine_error_iff fault).mp hengine)
    · rintro (hfault | ⟨husable, -⟩)
      · obtain rfl := Except.error.inj (hfault.checkEngine_eq.symm.trans hengine)
        rfl
      · cases husable.checkEngine_eq.symm.trans hengine
  | ok u =>
    simp only [sessionWith_error_iff]
    constructor
    · rintro ⟨cause, hcause, rfl⟩
      exact .document (c.engine.checkEngine_ok_iff.mp hengine) hcause
    · rintro (hfault | ⟨-, hcause⟩)
      · cases hfault.checkEngine_eq.symm.trans hengine
      · exact ⟨_, hcause, rfl⟩

/-- The check of a configuration is what a session with its engine is refused by. -/
theorem check_eq_session : c.check = (c.session host launch).map fun _ => () := by
  rw [check, session_eq, sessionWith_eq, checkDocument]
  cases checkEngine c.engine with
  | error fault => rfl
  | ok u => cases Document.new c.document <;> rfl

/-- A session that started hands out documents, whatever its typesetter. -/
theorem handsOut_of_sessionWith {s : Session σ} (h : c.sessionWith typesetter state = .ok s) :
    s.HandsOut c.document := by
  obtain ⟨husable, rfl⟩ := (c.sessionWith_ok_iff typesetter state s).mp h
  obtain ⟨d, hd⟩ := c.document.new_ok_iff.mpr husable
  exact Session.handsOut_of_new (s := { options := c.document, typesetter, state }) hd

end Session

/-- **Usable configurations.** A session with the engine of a configuration starts if the
settings of the engine and the options of the documents are usable, and it is refused for the
first fault of the two, in this order. A session with another typesetter depends on the
options alone, and is refused for their first fault. From a session of either kind, whatever
is done in it, a new document can be had, and it is the new document of the options. -/
theorem usable_configurations_start (c : PressConfig) :
    (∀ (host : Host) (launch : Invocation → Launch),
      ((∃ s, c.session host launch = .ok s) ↔ c.engine.Usable ∧ c.document.Usable) ∧
      (∀ e, c.session host launch = .error e ↔ c.FirstFault e) ∧
      (∀ s, c.session host launch = .ok s → s.HandsOut c.document) ∧
      c.check = (c.session host launch).map fun _ => ()) ∧
    ∀ {σ : Type} (typesetter : Typesetter σ) (state : σ),
      ((∃ s, c.sessionWith typesetter state = .ok s) ↔ c.document.Usable) ∧
      (∀ e, c.sessionWith typesetter state = .error e ↔
        ∃ cause, c.document.FirstFault cause ∧ e = .document cause) ∧
      (∀ s, c.sessionWith typesetter state = .ok s → s.HandsOut c.document) ∧
      ∀ engine : EngineSettings,
        { c with engine }.sessionWith typesetter state = c.sessionWith typesetter state := by
  have hstarts : ∀ {σ : Type} (typesetter : Typesetter σ) (state : σ),
      (∃ s, c.sessionWith typesetter state = .ok s) ↔ c.document.Usable := by
    intro σ typesetter state
    simp only [sessionWith_ok_iff, exists_and_left, exists_eq, and_true]
  refine ⟨fun host launch => ⟨?_, c.session_error_iff host launch, fun s hs => ?_,
      c.check_eq_session host launch⟩,
    fun typesetter state => ⟨hstarts typesetter state, c.sessionWith_error_iff typesetter state,
      fun s hs => c.handsOut_of_sessionWith typesetter state hs, fun engine => rfl⟩⟩
  · simp only [session_ok_iff, exists_and_left, hstarts]
  · exact c.handsOut_of_sessionWith _ _ ((c.session_ok_iff host launch s).mp hs).2

/-- A configuration with blanks around the program, a hyphen in the job name, a watermark that is
not shown and a colour; a document is started over and rendered before the next one is had. -/
theorem final_draft_starts :
    let c : PressConfig :=
      { document := { isFinal := true, watermark := some { text := "DRAFT" },
                      colours := [{ name := "brand", value := " #369 " }] }
        engine := { program := " lualatex ", timeoutSeconds := 1, jobName := "a-b_c9" } }
    let actions : List Session.Action :=
      [.create, .ask 0 (.edit (.init { body := ["other"] })), .ask 0 (.render .pdf)]
    ∃ s, c.session {} (fun _ => .unfinished) = .ok s ∧
      ∃ d number after, Document.new c.document = .ok d ∧
        (Session.actAll actions s).2.newDocument = .ok (number, after) ∧
        after.documents[number]? = some d := by
  intro c actions
  have hname : EngineSettings.IsStem "a-b_c9" := (EngineSettings.isJobName_iff _).mp (by decide)
  have hengine : c.engine.Usable := ⟨⟨'l', by decide, by decide⟩, by decide, hname⟩
  have hdocument : c.document.Usable := by
    refine ⟨?_, ?_⟩
    · rintro mark ⟨⟩ c hc hspecial
      have hplain : "DRAFT".toList.all (fun c => !Watermark.specials.contains c) = true := by decide
      have hnot := List.all_eq_true.mp hplain c hc
      rw [List.contains_iff_mem.mpr hspecial] at hnot
      cases hnot
    · intro colour hcolour
      obtain rfl := List.mem_singleton.mp hcolour
      exact ⟨⟨"brand", "336699", .html⟩, by decide⟩
  obtain ⟨hstarts, -, hhandsOut, -⟩ :=
    (usable_configurations_start c).1 {} fun _ => .unfinished
  obtain ⟨s, hs⟩ := hstarts.mpr ⟨hengine, hdocument⟩
  exact ⟨s, hs, hhandsOut s hs actions⟩

end PressConfig

end Galley
