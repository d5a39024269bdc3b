/-
`Proofs/Requirements.lean` -- what a span needs of a styler, and what it fails for.

The styler of a document knows every built-in name, so its spans never fail. A styler can be
made from any colours and styles, though, and then each name that a span looks up may be
missing. The names are looked up in a fixed order: the colours, the styles from the inside
out, and last the colour of ordinary text. What is shown here is that this order decides
everything. A span fails for the first name that is missing and for nothing else, and it
comes out whole if none is.

A preset looks at its indices before it marks anything, and at its prior version before the
current one. So there are four things that can be wrong with it, and the first of them is
its error.
-/
import Galley.Proofs.Marking

set_option autoImplicit false

namespace Galley

/-! ## The names that a span looks up -/

/-- What a span with these flags looks up, in order. -/
def StyleFlags.needs (f : StyleFlags) : List (Registry.Kind × String) :=
  let choices : List (Bool × Registry.Kind × String) :=
    [(f.new, .colour, "new"), (f.old, .colour, "old"), (f.eq, .colour, "eq"),
      (f.neq, .colour, "neq"), (f.strikeout, .style, "st"), (f.bold, .style, "bf"),
      (f.italic, .style, "it"), (f.underline, .style, "ul"), (true, .colour, "text")]
  (choices.filter Prod.fst).map Prod.snd

namespace Styler

/-- Whether a name is registered with the styler; it has colours and styles only. -/
def knows (s : Styler) (item : Registry.Kind × String) : Bool :=
  match item.1 with
  | .colour => s.colours.contains item.2
  | .style => s.styles.contains item.2
  | _ => false

/-- The first name that a span looks up and that is not registered. -/
def missing? (s : Styler) (flags : StyleFlags) : Option (Registry.Kind × String) :=
  flags.needs.find? fun item => !s.knows item

end Styler

/-- The names of one kind that are chosen among pairs are those selected by the flags. -/
theorem StyleFlags.map_snd_filter (kind : Registry.Kind) (choices : List (Bool × String)) :
    ((choices.map fun choice => (choice.1, kind, choice.2)).filter Prod.fst).map Prod.snd
      = (selected choices).map fun name => (kind, name) := by
  induction choices with
  | nil => rfl
  | cons choice choices ih =>
    obtain ⟨wanted, name⟩ := choice
    cases wanted with
    | true => simpa [selected] using ih
    | false => simpa [selected] using ih

/-- The names are the colours, the styles and the colour of ordinary text. -/
theorem StyleFlags.needs_eq (f : StyleFlags) :
    f.needs = (f.colours.map fun name => (Registry.Kind.colour, name))
      ++ (f.decorations.map fun name => (Registry.Kind.style, name))
      ++ [(.colour, BuiltIn.textColour)] := by
  have hchoices : f.needs
      = ((([(f.new, BuiltIn.newColour), (f.old, BuiltIn.oldColour), (f.eq, BuiltIn.equalColour),
            (f.neq, BuiltIn.unequalColour)].map fun choice =>
              (choice.1, Registry.Kind.colour, choice.2))
          ++ ([(f.strikeout, BuiltIn.strikeout), (f.bold, BuiltIn.bold),
            (f.italic, BuiltIn.italic), (f.underline, BuiltIn.underline)].map fun choice =>
              (choice.1, Registry.Kind.style, choice.2))
          ++ [(true, Registry.Kind.colour, BuiltIn.textColour)]).filter Prod.fst).map Prod.snd :=
    rfl
  rw [hchoices, List.filter_append, List.filter_append, List.map_append, List.map_append,
    map_snd_filter, map_snd_filter]
  rfl

namespace Styler

variable {s : Styler} {flags : StyleFlags}

/-! ## Look-ups that miss -/

theorem colourSwitch_missing {name : String} (h : s.colours.contains name = false) :
    s.colourSwitch name = .error (.unknown .colour name) := by
  have hget : s.colours.get name = .error (.unknown .colour name) :=
    Registry.get_error_iff.mpr ⟨h, rfl⟩
  rw [colourSwitch, hget]
  rfl

theorem decorate_missing {name : String} (h : s.styles.contains name = false) (text : String) :
    s.decorate text name = .error (.unknown .style name) := by
  have hget : s.styles.get name = .error (.unknown .style name) :=
    Registry.get_error_iff.mpr ⟨h, rfl⟩
  rw [decorate, hget]
  rfl

theorem isOk_colourSwitch (name : String) :
    (s.colourSwitch name).isOk = s.colours.contains name := by
  by_cases h : s.colours.contains name = true
  · rw [colourSwitch_eq h, h]
    rfl
  · rw [Bool.not_eq_true] at h
    rw [colourSwitch_missing h, h]
    rfl

/-- The first colour that is missing stops the switches. -/
theorem mapM_colourSwitch_missing {names : List String} {name : String}
    (h : names.find? (fun n => !s.colours.contains n) = some name) :
    names.mapM s.colourSwitch = .error (.unknown .colour name) := by
  have hname : s.colours.contains name = false := by simpa using List.find?_some h
  refine mapM_error_iff.mpr ⟨name, ?_, colourSwitch_missing hname⟩
  simpa only [isOk_colourSwitch] using h

/-- The first style that is missing stops the decoration, whatever is already around the
text. -/
theorem foldlM_decorate_missing {names : List String} {name : String}
    (h : names.find? (fun n => !s.styles.contains n) = some name) (text : String) :
    names.foldlM s.decorate text = .error (.unknown .style name) := by
  -- The styles in front of it are all known, and their groups are made before the miss.
  obtain ⟨hname, before, after, rfl, hbefore⟩ := List.find?_eq_some_iff_append.mp h
  have hknown : ∀ n ∈ before, s.styles.contains n = true := fun n hn => by
    simpa using hbefore n hn
  have hmissing : s.styles.contains name = false := by simpa using hname
  rw [List.foldlM_append, foldlM_decorate hknown]
  simp only [bind, Except.bind, List.foldlM_cons, decorate_missing hmissing]

/-! ## Spans -/

theorem missing?_eq (s : Styler) (flags : StyleFlags) :
    s.missing? flags
      = (((flags.colours.find? fun n => !s.colours.contains n).map fun n => (.colour, n)).or
          ((flags.decorations.find? fun n => !s.styles.contains n).map fun n => (.style, n))).or
        (if s.colours.contains BuiltIn.textColour then none
          else some (.colour, BuiltIn.textColour)) := by
  have hback : s.knows (.colour, BuiltIn.textColour) = s.colours.contains BuiltIn.textColour := rfl
  rw [missing?, StyleFlags.needs_eq, List.find?_append, List.find?_append, List.find?_map,
    List.find?_map, List.find?_singleton, hback]
  cases s.colours.contains BuiltIn.textColour <;> rfl

/-- A span has what it needs when every name that it looks up is known. -/
theorem missing?_eq_none_iff :
    s.missing? flags = none ↔ ∀ item ∈ flags.needs, s.knows item = true := by
  simp [missing?]

/-- **A span comes out whole or stops at the first name that is missing.** The three stages
are gone through as the span goes through them. -/
theorem style_eq_missing? (text : String) :
    s.style text flags
      = match s.missing? flags with
        | none => .ok (flags.mark text)
        | some item => .error (.lookup (.unknown item.1 item.2)) := by
  rw [missing?_eq, style]
  cases hcolours : flags.colours.find? fun n => !s.colours.contains n with
  | some name =>
    rw [span, mapM_colourSwitch_missing hcolours]
    rfl
  | none =>
    have hknown : ∀ name ∈ flags.colours, s.colours.contains name = true := by
      simpa using hcolours
    cases hstyles : flags.decorations.find? fun n => !s.styles.contains n with
    | some name =>
      rw [span, mapM_colourSwitch hknown]
      simp only [bind, Except.bind, foldlM_decorate_missing hstyles]
      rfl
    | none =>
      have hdecorations : ∀ name ∈ flags.decorations, s.styles.contains name = true := by
        simpa using hstyles
      -- Only the way back to the colour of ordinary text is left.
      by_cases hback : s.colours.contains BuiltIn.textColour = true
      · rw [span_eq hknown hdecorations hback, hback]
        rfl
      · rw [Bool.not_eq_true] at hback
        rw [span, mapM_colourSwitch hknown]
        simp only [bind, Except.bind, foldlM_decorate hdecorations, colourSwitch_missing hback,
          hback]
        rfl

theorem style_error_iff {text : String} {e : DocumentError} :
    s.style text flags = .error e ↔
      ∃ item, s.missing? flags = some item ∧ e = .lookup (.unknown item.1 item.2) := by
  rw [style_eq_missing?]
  cases s.missing? flags with
  | none => simp
  | some item => simp [@eq_comm _ e]

theorem style_ok_iff {text : String} {fragment : Fragment} :
    s.style text flags = .ok fragment ↔
      s.missing? flags = none ∧ fragment = flags.mark text := by
  rw [style_eq_missing?]
  cases s.missing? flags with
  | none => simp [@eq_comm _ fragment]
  | some item => simp

/-! ## Presets -/

/-- What is wrong with a preset, and nothing that is looked at before it is: the version, the
prior version of a pair, a name that the prior version needs, and one that the version
itself needs. -/
inductive PresetFault (s : Styler) (preset : RevisionPreset) (history : List String) (n : Nat)
    (m : Option Nat) : DocumentError → Prop
  | version (hn : history.length ≤ n) :
      PresetFault s preset history n m (.validation (.revisionIndex n history.length))
  | priorVersion (hn : n < history.length) (hpaired : preset.isPaired = true)
      (hm : history.length ≤ m.getD 0) :
      PresetFault s preset history n m (.validation (.revisionIndex (m.getD 0) history.length))
  | priorSpan (hn : n < history.length) (hpaired : preset.isPaired = true)
      (hm : m.getD 0 < history.length) {item : Registry.Kind × String}
      (hmissing : s.missing? preset.priorFlags = some item) :
      PresetFault s preset history n m (.lookup (.unknown item.1 item.2))
  | span (hn : n < history.length)
      (hprior : preset.isPaired = true →
        m.getD 0 < history.length ∧ s.missing? preset.priorFlags = none)
      {item : Registry.Kind × String} (hmissing : s.missing? preset.flags = some item) :
      PresetFault s preset history n m (.lookup (.unknown item.1 item.2))

section Presets

variable {preset : RevisionPreset} {history : List String} {n : Nat} {m : Option Nat}

theorem applyPreset_of_not_lt (hn : history.length ≤ n) :
    s.applyPreset preset history n m = .error (.validation (.revisionIndex n history.length)) := by
  rw [applyPreset, version, List.getElem?_eq_none hn]
  rfl

/-- An unpaired preset is the span of its version. -/
theorem applyPreset_of_unpaired (hn : n < history.length) (hpaired : preset.isPaired = false) :
    s.applyPreset preset history n m = s.style history[n] preset.flags := by
  rw [applyPreset, version, List.getElem?_eq_getElem hn, hpaired]
  rfl

theorem applyPreset_of_prior_not_lt (hn : n < history.length) (hpaired : preset.isPaired = true)
    (hm : history.length ≤ m.getD 0) :
    s.applyPreset preset history n m
      = .error (.validation (.revisionIndex (m.getD 0) history.length)) := by
  rw [applyPreset, version, version, List.getElem?_eq_getElem hn, List.getElem?_eq_none hm,
    hpaired]
  rfl

/-- A paired preset is the span of the prior version and then that of the version. -/
theorem applyPreset_of_paired (hn : n < history.length) (hpaired : preset.isPaired = true)
    (hm : m.getD 0 < history.length) :
    s.applyPreset preset history n m
      = (s.style history[m.getD 0] preset.priorFlags).bind fun removed =>
          (s.style history[n] preset.flags).map fun added => removed ++ added := by
  have hspans : s.applyPreset preset history n m
      = (s.style history[m.getD 0] preset.priorFlags).bind fun removed =>
          (s.style history[n] preset.flags).bind fun added => .ok (removed ++ added) := by
    rw [applyPreset, version, version, List.getElem?_eq_getElem hn, List.getElem?_eq_getElem hm,
      hpaired]
    rfl
  rw [hspans]
  cases s.style history[n] preset.flags <;> rfl

/-- A fault is the error: nothing that is looked at before it stops the preset. -/
theorem PresetFault.applyPreset_eq {e : DocumentError}
    (h : s.PresetFault preset history n m e) :
    s.applyPreset preset history n m = .error e := by
  cases h with
  | version hn => exact applyPreset_of_not_lt hn
  | priorVersion hn hpaired hm => exact applyPreset_of_prior_not_lt hn hpaired hm
  | priorSpan hn hpaired hm hmissing =>
    rw [applyPreset_of_paired hn hpaired hm, style_eq_missing?, hmissing]
    rfl
  | span hn hprior hmissing =>
    by_cases hpaired : preset.isPaired = true
    · obtain ⟨hm, hknown⟩ := hprior hpaired
      rw [applyPreset_of_paired hn hpaired hm, style_eq_missing?, hknown, style_eq_missing?,
        hmissing]
      rfl
    · rw [Bool.not_eq_true] at hpaired
      rw [applyPreset_of_unpaired hn hpaired, style_eq_missing?, hmissing]

/-- The indices are in range and the names are known, so far as the preset looks at them. -/
def Serves (s : Styler) (preset : RevisionPreset) (history : List String) (n : Nat)
    (m : Option Nat) : Prop :=
  n < history.length ∧
    (preset.isPaired = true →
      m.getD 0 < history.length ∧ ∀ item ∈ preset.priorFlags.needs, s.knows item = true) ∧
    ∀ item ∈ preset.flags.needs, s.knows item = true

/-- If nothing is wrong with a preset, the styler serves it. Each check that fails after others
that do not is a fault. -/
theorem serves_of_no_fault (h : ∀ e, ¬ s.PresetFault preset history n m e) :
    s.Serves preset history n m := by
  have hn : n < history.length := by
    by_contra hn
    exact h _ (.version (Nat.le_of_not_lt hn))
  have hprior : preset.isPaired = true →
      m.getD 0 < history.length ∧ s.missing? preset.priorFlags = none := by
    intro hpaired
    have hm : m.getD 0 < history.length := by
      by_contra hm
      exact h _ (.priorVersion hn hpaired (Nat.le_of_not_lt hm))
    refine ⟨hm, Option.eq_none_iff_forall_not_mem.mpr fun item hmissing => ?_⟩
    exact h _ (.priorSpan hn hpaired hm hmissing)
  have hcurrent : s.missing? preset.flags = none :=
    Option.eq_none_iff_forall_not_mem.mpr fun item hmissing => h _ (.span hn hprior hmissing)
  simp only [missing?_eq_none_iff] at hprior hcurrent
  exact ⟨hn, hprior, hcurrent⟩

/-- The text of a preset: the version in its frame, and in front of it the prior version in its
own if the preset is paired. -/
def wholeText (preset : RevisionPreset) (current prior : String) : Fragment :=
  (if preset.isPaired then preset.priorFlags.mark prior else "") ++ preset.flags.mark current

/-- A preset that is served comes out whole. -/
theorem Serves.applyPreset_eq (h : s.Serves preset history n m) :
    ∃ current, history[n]? = some current ∧
      ∃ prior, (preset.isPaired = true → history[m.getD 0]? = some prior) ∧
        s.applyPreset preset history n m = .ok (wholeText preset current prior) := by
  obtain ⟨hn, hprior, hcurrent⟩ := h
  simp only [← missing?_eq_none_iff] at hprior hcurrent
  refine ⟨history[n], List.getElem?_eq_getElem hn, ?_⟩
  by_cases hpaired : preset.isPaired = true
  · obtain ⟨hm, hknown⟩ := hprior hpaired
    refine ⟨history[m.getD 0], fun _ => List.getElem?_eq_getElem hm, ?_⟩
    rw [applyPreset_of_paired hn hpaired hm, style_eq_missing?, hknown, style_eq_missing?,
      hcurrent, wholeText, if_pos hpaired]
    rfl
  · refine ⟨"", fun h => absurd h hpaired, ?_⟩
    rw [applyPreset_of_unpaired hn (Bool.not_eq_true _ ▸ hpaired), style_eq_missing?, hcurrent,
      wholeText, if_neg hpaired, String.empty_append]

/-- **A preset fails for the first thing that is wrong with it.** -/
theorem applyPreset_error_iff_fault {e : DocumentError} :
    s.applyPreset preset history n m = .error e ↔ s.PresetFault preset history n m e := by
  refine ⟨fun herror => ?_, PresetFault.applyPreset_eq⟩
  -- With any fault the preset stops at it, and with none it does not stop.
  by_cases h : ∃ fault, s.PresetFault preset history n m fault
  · obtain ⟨fault, hfault⟩ := h
    obtain rfl : fault = e := Except.error.inj (hfault.applyPreset_eq.symm.trans herror)
    exact hfault
  · obtain ⟨current, -, prior, -, hwhole⟩ := (serves_of_no_fault (not_exists.mp h)).applyPreset_eq
    cases hwhole.symm.trans herror

theorem applyPreset_isOk_iff_serves :
    (s.applyPreset preset history n m).isOk = true ↔ s.Serves preset history n m := by
  constructor
  · intro hok
    refine serves_of_no_fault fun e hfault => ?_
    rw [hfault.applyPreset_eq] at hok
    cases hok
  · intro h
    obtain ⟨current, -, prior, -, hwhole⟩ := h.applyPreset_eq
    rw [hwhole]
    rfl

end Presets

/-! ## Any styler -/

/-- **Marking fails for the first thing that is missing, and for nothing else.** Whatever colours
and styles a styler has, a span comes out exactly when every name that its flags need is
registered, and else its error is the miss of the first of them that is not. A preset fails
for the first of its faults and comes out exactly when it has none. What comes out is the
whole text, with each version in its frame. -/
theorem marking_stops_at_first_miss (s : Styler) :
    (∀ (text : String) (flags : StyleFlags),
      ((s.style text flags).isOk = true ↔ ∀ item ∈ flags.needs, s.knows item = true) ∧
      (∀ e, s.style text flags = .error e ↔
        ∃ item, (flags.needs.find? fun item => !s.knows item) = some item ∧
          e = .lookup (.unknown item.1 item.2)) ∧
      ∀ fragment, s.style text flags = .ok fragment → fragment = flags.mark text) ∧
    ∀ (preset : RevisionPreset) (history : List String) (n : Nat) (m : Option Nat),
      ((s.applyPreset preset history n m).isOk = true ↔
        n < history.length ∧
        (preset.isPaired = true →
          m.getD 0 < history.length ∧ ∀ item ∈ preset.priorFlags.needs, s.knows item = true) ∧
        ∀ item ∈ preset.flags.needs, s.knows item = true) ∧
      (∀ e, s.applyPreset preset history n m = .error e ↔ s.PresetFault preset history n m e) ∧
      ∀ fragment, s.applyPreset preset history n m = .ok fragment →
        ∃ current, history[n]? = some current ∧
          ∃ prior, (preset.isPaired = true → history[m.getD 0]? = some prior) ∧
            fragment = wholeText preset current prior := by
  refine ⟨fun text flags => ⟨?_, fun e => style_error_iff, fun fragment h => ?_⟩,
    fun preset history n m => ⟨applyPreset_isOk_iff_serves,
      fun e => applyPreset_error_iff_fault, fun fragment h => ?_⟩⟩
  · rw [← missing?_eq_none_iff, style_eq_missing?]
    cases s.missing? flags with
    | none => exact iff_of_true rfl rfl
    | some item => exact iff_of_false nofun nofun
  · exact (style_ok_iff.mp h).2
  · have hserves : s.Serves preset history n m :=
      applyPreset_isOk_iff_serves.mp (by rw [h]; rfl)
    obtain ⟨current, hcurrent, prior, hprior, hwhole⟩ := hserves.applyPreset_eq
    exact ⟨current, hcurrent, prior, hprior, Except.ok.inj (h.symm.trans hwhole)⟩

/-- With the styles lost but one, a change stops at the style that strikes out, although the
current side could be marked, and an index that is out of range goes before it. -/
theorem change_stops_at_strikeout :
    let s : Styler :=
      { colours := .ofList (["text", "new", "old"].map fun name => ⟨name, "000000", .html⟩)
        styles := .ofList [⟨"ul", "\\ul\x7b", "\x7d"⟩] }
    (s.style "a" { new := true, underline := true }).isOk = true ∧
      s.applyPreset .neq ["a", "b"] 0 (some 1) = .error (.lookup (.unknown .style "st")) ∧
      s.applyPreset .neq ["a", "b"] 0 (some 2)
        = .error (.validation (.revisionIndex 2 2)) := by
  intro s
  obtain ⟨hspans, hpresets⟩ := marking_stops_at_first_miss s
  refine ⟨(hspans _ _).1.mpr (by decide), ((hpresets _ _ _ _).2.1 _).mpr ?_,
    ((hpresets _ _ _ _).2.1 _).mpr ?_⟩
  · have hmissing : s.missing? RevisionPreset.neq.priorFlags = some (.style, "st") := by decide
    exact .priorSpan (by decide) rfl (by decide) hmissing
  · exact .priorVersion (by decide) rfl (by decide)

end Styler

end Galley
