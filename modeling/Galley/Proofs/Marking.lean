/-
`Proofs/Marking.lean` -- marked spans, in any document.

A marked span looks colours and styles up, so it could fail, and it could come out
differently in two documents. It does neither. The flags select among the built-in names
only, which every document knows from its start and never loses; a redefined style or an
override changes what a name means to the typesetter and not how it is written. So a span
is three texts, of which the first and the last follow from the flags: the first switches
to the colours and opens the styles, and the last closes as many groups as the first has
left open and switches back to the colour of ordinary text.

A preset adds the choice of versions to this, and an index that is out of range is the
one thing that can be wrong with it.
-/
import Galley.Proofs.Braces
import Galley.Proofs.Names

set_option autoImplicit false

namespace Galley

open Registry Document

/-! ## The frame of a span -/

namespace StyleFlags

/-- What a marked span begins with: the switches to its colours, and then its styles from
the outside in, each up to the brace that opens its text. -/
def opening (f : StyleFlags) : String :=
  String.join (f.colours.map fun name => Tex.command "color" [name])
    ++ String.join (f.decorations.reverse.map fun name => Tex.control ("style" ++ name) ++ "\x7b")

/-- What a marked span ends with: a brace for each style, and the switch to the colour of
ordinary text. -/
def closing (f : StyleFlags) : String :=
  String.join (f.decorations.map fun _ => "\x7d") ++ Tex.command "color" [BuiltIn.textColour]

/-- A text, cleaned if the flags say so, in its frame. -/
def mark (f : StyleFlags) (text : String) : Fragment :=
  f.opening ++ Styler.content text f ++ f.closing

variable {f : StyleFlags} {name : String}

theorem mem_selected {choices : List (Bool × String)} (h : name ∈ selected choices) :
    ∃ choice ∈ choices, choice.2 = name := by
  obtain ⟨choice, hchoice, hname⟩ := List.mem_filterMap.mp h
  split at hname
  · exact ⟨choice, hchoice, Option.some.inj hname⟩
  · cases hname

/-- The flags select built-in colours only. -/
theorem colours_builtIn (h : name ∈ f.colours) : ∃ c ∈ builtInColours, c.1 = name := by
  obtain ⟨choice, hchoice, rfl⟩ := mem_selected h
  simp only [List.mem_cons, List.not_mem_nil, or_false] at hchoice
  rcases hchoice with rfl | rfl | rfl | rfl <;> simp [builtInColours]

/-- The flags select built-in styles only. -/
theorem decorations_builtIn (h : name ∈ f.decorations) : ∃ s ∈ builtInStyles, s.1 = name := by
  obtain ⟨choice, hchoice, rfl⟩ := mem_selected h
  simp only [List.mem_cons, List.not_mem_nil, or_false] at hchoice
  rcases hchoice with rfl | rfl | rfl | rfl <;> simp [builtInStyles]

theorem braceless_colour (h : name ∈ f.colours) : Tex.Braceless name := by
  have hnames : ∀ c ∈ builtInColours, Tex.Braceless c.1 := by decide
  obtain ⟨c, hc, rfl⟩ := colours_builtIn h
  exact hnames c hc

theorem braceless_decoration (h : name ∈ f.decorations) : Tex.Braceless name := by
  have hnames : ∀ s ∈ builtInStyles, Tex.Braceless s.1 := by decide
  obtain ⟨s, hs, rfl⟩ := decorations_builtIn h
  exact hnames s hs

/-! ### What is opened is closed -/

/-- Each style opens one group. -/
theorem depth_openings {names : List String} (h : ∀ name ∈ names, Tex.Braceless name) (n : Nat) :
    Tex.depth n (String.join (names.map fun name => Tex.control ("style" ++ name) ++ "\x7b"))
      = some (n + names.length) := by
  induction names generalizing n with
  | nil => rfl
  | cons name names ih =>
    obtain ⟨hname, hnames⟩ := List.forall_mem_cons.mp h
    have hword : Tex.Balanced (Tex.control ("style" ++ name)) := by
      have hstyle : Tex.Braceless "style" := by decide
      exact Tex.balanced_control (hstyle.append hname)
    rw [List.map_cons, String.join_cons, Tex.depth_append, Tex.depth_append, hword.depth_eq,
      Option.bind_some, Tex.depth_opening, Option.bind_some, ih hnames, List.length_cons]
    congr 1
    omega

/-- Each brace closes one. -/
theorem depth_closings (names : List String) (n : Nat) :
    Tex.depth (n + names.length) (String.join (names.map fun _ => "\x7d")) = some n := by
  induction names with
  | nil => rfl
  | cons name names ih =>
    rw [List.map_cons, String.join_cons, Tex.depth_append, List.length_cons, ← Nat.add_assoc,
      Tex.depth_closing, Option.bind_some, ih]

/-- The opening leaves as many groups open as there are styles. -/
theorem depth_opening (f : StyleFlags) (n : Nat) :
    Tex.depth n f.opening = some (n + f.decorations.length) := by
  have hswitches : Tex.Balanced
      (String.join (f.colours.map fun name => Tex.command "color" [name])) := by
    refine Tex.balanced_join fun switch hswitch => ?_
    obtain ⟨name, hname, rfl⟩ := List.mem_map.mp hswitch
    refine Tex.balanced_command (by decide) fun argument hargument => ?_
    obtain rfl := List.mem_singleton.mp hargument
    exact (braceless_colour hname).balanced
  have hstyles : ∀ name ∈ f.decorations.reverse, Tex.Braceless name :=
    fun name hname => braceless_decoration (List.mem_reverse.mp hname)
  rw [opening, Tex.depth_append, hswitches.depth_eq, Option.bind_some, depth_openings hstyles,
    List.length_reverse]

/-- The closing closes them all. -/
theorem depth_closing (f : StyleFlags) (n : Nat) :
    Tex.depth (n + f.decorations.length) f.closing = some n := by
  have hswitch : Tex.Balanced (Tex.command "color" [BuiltIn.textColour]) := by decide
  rw [closing, Tex.depth_append, depth_closings, Option.bind_some, hswitch.depth_eq]

/-- A span of a balanced text is balanced. -/
theorem balanced_mark (f : StyleFlags) {text : String} (h : Tex.Balanced text) :
    Tex.Balanced (f.mark text) := by
  -- Neither side of the frame is balanced on its own.
  have hframe : Tex.Balanced (f.opening ++ f.closing) := by
    rw [Tex.balanced_iff, Tex.depth_append, depth_opening, Option.bind_some, depth_closing]
  have hcontent : Tex.Balanced (Styler.content text f) := by
    rw [Styler.content]
    split
    · exact h.clean
    · exact h
  exact hframe.insert hcontent

end StyleFlags

/-! ## Spans of a styler -/

namespace Styler

/-- The styler knows the built-in colours and styles. -/
structure Complete (s : Styler) : Prop where
  colours : ∀ c ∈ builtInColours, s.colours.contains c.1 = true
  styles : ∀ style ∈ builtInStyles, s.styles.contains style.1 = true

variable {s : Styler}

/-- A switch is written with the name of the colour and nothing else of it. -/
theorem colourSwitch_eq {name : String} (h : s.colours.contains name = true) :
    s.colourSwitch name = .ok (Tex.command "color" [name]) := by
  obtain ⟨entry, hget, rfl⟩ := exists_get h
  rw [colourSwitch, hget]
  rfl

/-- A style is written with its name; what it sets the text between does not matter. -/
theorem decorate_eq {name : String} (h : s.styles.contains name = true) (text : String) :
    s.decorate text name = .ok (Tex.control ("style" ++ name) ++ Tex.group text) := by
  obtain ⟨entry, hget, rfl⟩ := exists_get h
  rw [decorate, hget]
  rfl

theorem mapM_colourSwitch {names : List String}
    (h : ∀ name ∈ names, s.colours.contains name = true) :
    names.mapM s.colourSwitch = .ok (names.map fun name => Tex.command "color" [name]) := by
  induction names with
  | nil => rfl
  | cons name names ih =>
    obtain ⟨hname, hnames⟩ := List.forall_mem_cons.mp h
    rw [List.mapM_cons, colourSwitch_eq hname, ih hnames]
    rfl

/-- The styles go around the text from the inside out, so the last of them is the first
that is opened. -/
theorem foldlM_decorate {names : List String}
    (h : ∀ name ∈ names, s.styles.contains name = true) (text : String) :
    names.foldlM s.decorate text
      = .ok (String.join (names.reverse.map fun name => Tex.control ("style" ++ name) ++ "\x7b")
          ++ text ++ String.join (names.map fun _ => "\x7d")) := by
  induction names generalizing text with
  | nil => simp; rfl
  | cons name names ih =>
    obtain ⟨hname, hnames⟩ := List.forall_mem_cons.mp h
    have hstep : (name :: names).foldlM s.decorate text
        = names.foldlM s.decorate (Tex.control ("style" ++ name) ++ Tex.group text) := by
      rw [List.foldlM_cons, decorate_eq hname]
      rfl
    -- The text of the remaining styles is the first style around the text.
    rw [hstep, ih hnames]
    simp only [List.reverse_cons, List.map_append, List.map_cons, List.map_nil, String.join_append,
      String.join_cons, String.join_nil, Tex.group, String.append_assoc, String.empty_append]

/-- A span whose names are all known is its frame around the text. -/
theorem span_eq {flags : StyleFlags}
    (hcolours : ∀ name ∈ flags.colours, s.colours.contains name = true)
    (hstyles : ∀ name ∈ flags.decorations, s.styles.contains name = true)
    (hback : s.colours.contains BuiltIn.textColour = true) (text : String) :
    s.span text flags = .ok (flags.mark text) := by
  rw [span, mapM_colourSwitch hcolours, foldlM_decorate hstyles, colourSwitch_eq hback,
    StyleFlags.mark, StyleFlags.opening, StyleFlags.closing]
  simp only [bind, Except.bind, pure, Except.pure, String.append_assoc]

/-- **A span is its frame.** No look-up of a styler that knows the built-in names fails. -/
theorem style_eq (h : s.Complete) (text : String) (flags : StyleFlags) :
    s.style text flags = .ok (flags.mark text) := by
  -- Every name that the span looks up is built in, so there is no look-up that could fail.
  have hcolours : ∀ name ∈ flags.colours, s.colours.contains name = true := by
    intro name hname
    obtain ⟨c, hc, rfl⟩ := StyleFlags.colours_builtIn hname
    exact h.colours c hc
  have hstyles : ∀ name ∈ flags.decorations, s.styles.contains name = true := by
    intro name hname
    obtain ⟨style, hstyle, rfl⟩ := StyleFlags.decorations_builtIn hname
    exact h.styles style hstyle
  have hback : s.colours.contains BuiltIn.textColour = true :=
    h.colours _ List.mem_cons_self
  rw [style, span_eq hcolours hstyles hback]
  rfl

/-- **Presets.** The version is looked at before the prior one, and nothing else can fail. -/
theorem applyPreset_eq (h : s.Complete) (preset : RevisionPreset) (history : List String) (n : Nat)
    (m : Option Nat) :
    s.applyPreset preset history n m
      = match history[n]?, history[m.getD 0]?, preset.isPaired with
        | none, _, _ => .error (.validation (.revisionIndex n history.length))
        | some _, none, true => .error (.validation (.revisionIndex (m.getD 0) history.length))
        | some current, some prior, true =>
          .ok (preset.priorFlags.mark prior ++ preset.flags.mark current)
        | some current, _, false => .ok (preset.flags.mark current) := by
  rw [applyPreset, version, version]
  cases history[n]? with
  | none => rfl
  | some current =>
    cases preset.isPaired with
    | false =>
      -- Whether there is a prior version does not matter here.
      cases history[m.getD 0]? <;> exact style_eq h current preset.flags
    | true =>
      cases history[m.getD 0]? with
      | none => rfl
      | some prior =>
        simp only [style_eq h]
        rfl

section Presets

variable {preset : RevisionPreset} {history : List String} {n : Nat} {m : Option Nat}

/-- A preset fails for the version if there is none, and a paired one for the prior version
if there is only the other. -/
theorem applyPreset_error_iff (h : s.Complete) (e : DocumentError) :
    s.applyPreset preset history n m = .error e ↔
      (history.length ≤ n ∧ e = .validation (.revisionIndex n history.length)) ∨
      (n < history.length ∧ preset.isPaired = true ∧ history.length ≤ m.getD 0 ∧
        e = .validation (.revisionIndex (m.getD 0) history.length)) := by
  rw [applyPreset_eq h]
  by_cases hn : n < history.length
  · have hfirst : ¬ history.length ≤ n := Nat.not_le_of_lt hn
    rw [List.getElem?_eq_getElem hn]
    by_cases hm : m.getD 0 < history.length
    · have hsecond : ¬ history.length ≤ m.getD 0 := Nat.not_le_of_lt hm
      rw [List.getElem?_eq_getElem hm]
      cases preset.isPaired <;> simp [hfirst, hsecond]
    · have hsecond : history.length ≤ m.getD 0 := Nat.le_of_not_lt hm
      rw [List.getElem?_eq_none hsecond]
      cases preset.isPaired <;> simp [hn, hfirst, hsecond, @eq_comm _ e]
  · have hfirst : history.length ≤ n := Nat.le_of_not_lt hn
    rw [List.getElem?_eq_none hfirst]
    simp [hn, hfirst, @eq_comm _ e]

/-- Otherwise it succeeds. -/
theorem applyPreset_isOk_iff (h : s.Complete) :
    (s.applyPreset preset history n m).isOk = true ↔
      n < history.length ∧ (preset.isPaired = true → m.getD 0 < history.length) := by
  rw [applyPreset_eq h]
  by_cases hn : n < history.length
  · rw [List.getElem?_eq_getElem hn]
    by_cases hm : m.getD 0 < history.length
    · rw [List.getElem?_eq_getElem hm]
      cases preset.isPaired <;> exact iff_of_true rfl ⟨hn, fun _ => hm⟩
    · rw [List.getElem?_eq_none (Nat.le_of_not_lt hm)]
      cases preset.isPaired with
      | false => exact iff_of_true rfl ⟨hn, nofun⟩
      | true => exact iff_of_false nofun fun hrange => hm (hrange.2 rfl)
  · rw [List.getElem?_eq_none (Nat.le_of_not_lt hn)]
    exact iff_of_false nofun fun hrange => hn hrange.1

theorem applyPreset_paired (h : s.Complete) (hpaired : preset.isPaired = true)
    (hn : n < history.length) (hm : m.getD 0 < history.length) :
    s.applyPreset preset history n m
      = .ok (StyleFlags.mark { old := true, strikeout := true, clean := preset == .neqClean }
            history[m.getD 0]
          ++ StyleFlags.mark { new := true, underline := true, clean := true } history[n]) := by
  rw [applyPreset_eq h, List.getElem?_eq_getElem hn, List.getElem?_eq_getElem hm, hpaired]
  -- Two presets are paired, and they mark the current version alike.
  cases preset with
  | neq => rfl
  | neqClean => rfl
  | _ => cases hpaired

theorem applyPreset_unpaired (h : s.Complete) (hpaired : preset.isPaired = false)
    (hn : n < history.length) :
    s.applyPreset preset history n m = .ok (preset.flags.mark history[n]) := by
  rw [applyPreset_eq h, List.getElem?_eq_getElem hn, hpaired]
  cases history[m.getD 0]? <;> rfl

/-- An unpaired preset does not look at the other index. -/
theorem applyPreset_ignores (hpaired : preset.isPaired = false) (m m' : Option Nat) :
    s.applyPreset preset history n m = s.applyPreset preset history n m' := by
  rw [applyPreset, applyPreset, hpaired]
  rfl

end Presets

end Styler

/-! ## Spans in a document -/

namespace Document

/-- The styler of a document knows the built-in names. -/
theorem complete_styler {edition : Edition} {d : Document} (h : Tracks edition d) :
    d.styler.Complete where
  colours c hc :=
    h.has_builtIn (r := .colour ⟨c.1, c.2, .html⟩)
      (List.mem_append_right _ (List.mem_map_of_mem hc))
  styles style hstyle :=
    h.has_builtIn (r := .style ⟨style.1, style.2.1, style.2.2⟩)
      (List.mem_append_left _ (List.mem_append_right _ (List.mem_map_of_mem hstyle)))

theorem styleText_on (d : Document) (text : String) (flags : StyleFlags) :
    (styleText text flags).on d = (d.styler.style text flags, d) :=
  Edit.on_ofResult _ d

theorem revise_on (d : Document) (preset : RevisionPreset) (history : List String) (n : Nat)
    (m : Option Nat) :
    (revise preset history n m).on d = (d.styler.applyPreset preset history n m, d) :=
  Edit.on_ofResult _ d

/-- **Marking is total and has no history.** After any calls on a new document, a span is
marked, and it comes out as the frame of its flags around the text, which is the same in
every document. The frame closes the groups that it opens, from any depth, and returns to
the colour of ordinary text. A preset fails when the version is out of range, or else when it
is paired and the prior version is, and for nothing else. A paired preset marks the prior
version as removed, cleaned by one of the two only, and the current one as added and
cleaned; an unpaired one does not look at the prior index. -/
theorem marking_is_total {o : DocumentOptions} {d₀ : Document} (h : Document.new o = .ok d₀)
    (operations : List Operation) :
    let d := Operation.runAll operations d₀
    (∀ (text : String) (flags : StyleFlags),
      (styleText text flags).on d
        = (.ok (flags.opening ++ (if flags.clean then Text.clean text else text)
            ++ flags.closing), d)) ∧
    (∀ (flags : StyleFlags) (depth : Nat),
      Tex.depth depth flags.opening = some (depth + flags.decorations.length) ∧
      Tex.depth (depth + flags.decorations.length) flags.closing = some depth ∧
      flags.closing
        = String.join (flags.decorations.map fun _ => "\x7d") ++ "\\color\x7btext\x7d") ∧
    ∀ (preset : RevisionPreset) (history : List String) (n : Nat) (m : Option Nat),
      let answer := ((revise preset history n m).on d).1
      (revise preset history n m).on d = (answer, d) ∧
      (answer.isOk = true ↔
        n < history.length ∧ (preset.isPaired = true → m.getD 0 < history.length)) ∧
      (∀ e, answer = .error e ↔
        (history.length ≤ n ∧ e = .validation (.revisionIndex n history.length)) ∨
        (n < history.length ∧ preset.isPaired = true ∧ history.length ≤ m.getD 0 ∧
          e = .validation (.revisionIndex (m.getD 0) history.length))) ∧
      (∀ (_ : preset.isPaired = true) (hn : n < history.length) (hm : m.getD 0 < history.length),
        ∃ prior current,
          (styleText history[m.getD 0]
            { old := true, strikeout := true, clean := preset == .neqClean }).on d
            = (.ok prior, d) ∧
          (styleText history[n] { new := true, underline := true, clean := true }).on d
            = (.ok current, d) ∧
          answer = .ok (prior ++ current)) ∧
      (preset.isPaired = false →
        (∀ hn : n < history.length,
          (styleText history[n] preset.flags).on d = (answer, d)) ∧
        ∀ m', ((revise preset history n m').on d).1 = answer) := by
  intro d
  have hcomplete : d.styler.Complete := complete_styler ((tracks_new h).runAll operations)
  have hspan : ∀ (text : String) (flags : StyleFlags),
      (styleText text flags).on d = (.ok (flags.mark text), d) := by
    intro text flags
    rw [styleText_on, Styler.style_eq hcomplete]
  refine ⟨hspan, fun flags depth =>
    ⟨flags.depth_opening depth, flags.depth_closing depth, rfl⟩, ?_⟩
  intro preset history n m answer
  have hother : ∀ m', ((revise preset history n m').on d).1
      = d.styler.applyPreset preset history n m' := by
    intro m'
    rw [revise_on]
  have hanswer : answer = d.styler.applyPreset preset history n m := hother m
  refine ⟨?_, ?_, fun e => ?_, ?_, ?_⟩
  · rw [revise_on, hanswer]
  · rw [hanswer]
    exact Styler.applyPreset_isOk_iff hcomplete
  · rw [hanswer]
    exact Styler.applyPreset_error_iff hcomplete e
  · intro hpaired hn hm
    refine ⟨_, _, hspan _ _, hspan _ _, ?_⟩
    rw [hanswer, Styler.applyPreset_paired hcomplete hpaired hn hm]
  · intro hpaired
    refine ⟨fun hn => ?_, fun m' => ?_⟩
    · rw [hspan, hanswer, Styler.applyPreset_unpaired hcomplete hpaired hn]
    · rw [hanswer, hother m', Styler.applyPreset_ignores hpaired]

/-- After a style and a colour are redefined and a start is refused, added text is marked as
ever, and a pair without its prior version is an error. -/
theorem redefined_names_mark_alike :
    let operations : List Operation :=
      [.addStyle "ul" "\\uline\x7b" "\x7d", .addColour "new" "00AA00" .html,
        .init { watermark := some { text := "50%" } }]
    let d := Operation.runAll operations (opened {} [])
    (styleText "a^" { new := true, clean := true, underline := true }).on d
        = (.ok
            "\\color\x7bnew\x7d\\styleul\x7batextasciicircum\x7b\x7d\x7d\\color\x7btext\x7d", d) ∧
      ((revise .neq ["x"] 0 (some 1)).on d).1 = .error (.validation (.revisionIndex 1 1)) := by
  intro operations d
  obtain ⟨hspan, -, hrevise⟩ := marking_is_total new_default operations
  obtain ⟨-, -, herror, -⟩ := hrevise .neq ["x"] 0 (some 1)
  constructor
  · rw [hspan]
    decide +kernel
  · exact (herror _).mpr (.inr ⟨by decide, rfl, by decide, rfl⟩)

end Document

end Galley
