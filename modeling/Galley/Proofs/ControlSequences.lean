/-
`Proofs/ControlSequences.lean` -- what a cleaned span tells the typesetter to do.

A typesetter obeys control sequences, and those of a marked span are to come from the
marking and not from the text. A text could bring one of its own, which takes a backslash;
or it could lengthen one of the marking, which takes a letter right behind it. A cleaned
text has no backslash, and the marking leaves no control word open: each is followed by a
brace. So the control sequences of a cleaned span are those of its frame, whatever the text
is, and the frame follows from the flags.

Which characters are letters depends on the typesetter. The ASCII letters are, and the brace
that opens a group is not; nothing else is needed of them here.
-/
import Galley.Proofs.Cleaning
import Galley.Proofs.ControlWords
import Galley.Proofs.Marking

set_option autoImplicit false

namespace Galley

/-! ## Control sequences -/

namespace Tex

/-- The characters that a typesetter reads as letters of a control word. -/
structure Letters where
  mem : Char → Bool
  ascii : ∀ c : Char, c.isAlpha = true → mem c = true
  brace : mem '\x7b' = false

/-- The letters of ASCII and no others. -/
def Letters.ofAscii : Letters := ⟨Char.isAlpha, fun _ h => h, by decide⟩

/-- Each backslash with all the letters right after it, in order. -/
def sequences (letters : Letters) : List Char → List String
  | [] => []
  | c :: cs =>
    if c = '\\' then String.ofList (cs.takeWhile letters.mem) :: sequences letters cs
    else sequences letters cs

/-- The control sequences of a text in order, each by its letters. -/
def controlSequences (letters : Letters) (s : Fragment) : List String :=
  sequences letters s.toList

variable {letters : Letters}

/-- Characters that are no backslash, in front of others, make no difference. -/
theorem sequences_append_of_not_mem {cs : List Char} (h : '\\' ∉ cs) (ds : List Char) :
    sequences letters (cs ++ ds) = sequences letters ds := by
  induction cs with
  | nil => rfl
  | cons c cs ih =>
    rw [List.mem_cons, not_or] at h
    rw [List.cons_append, sequences, if_neg (Ne.symm h.1), ih h.2]

theorem controlSequences_append_of_not_mem {s : String} (h : '\\' ∉ s.toList) (t : String) :
    controlSequences letters (s ++ t) = controlSequences letters t := by
  rw [controlSequences, String.toList_append, sequences_append_of_not_mem h]
  rfl

theorem backslash_not_mem {word : String} (h : IsWord word) : '\\' ∉ word.toList :=
  fun hmem => absurd (h _ hmem) (by decide)

/-- A control word with a brace behind it is one control sequence, and what follows the brace
does not matter to it. -/
theorem controlSequences_control {word : String} (h : IsWord word) (t : String) :
    controlSequences letters (control word ++ "\x7b" ++ t)
      = word :: controlSequences letters t := by
  have hletters : ∀ c ∈ word.toList, letters.mem c = true := fun c hc => letters.ascii c (h c hc)
  have htext : (control word ++ "\x7b" ++ t).toList
      = '\\' :: (word.toList ++ '\x7b' :: t.toList) := by
    simp [control]
  have hrun : (word.toList ++ '\x7b' :: t.toList).takeWhile letters.mem = word.toList := by
    rw [List.takeWhile_append_of_pos hletters, List.takeWhile_cons_of_neg (by simp [letters.brace]),
      List.append_nil]
  have hrest : '\\' ∉ word.toList ++ ['\x7b'] := by
    simpa using backslash_not_mem h
  calc controlSequences letters (control word ++ "\x7b" ++ t)
      = word :: sequences letters (word.toList ++ '\x7b' :: t.toList) := by
        rw [controlSequences, htext, sequences, if_pos rfl, hrun, String.ofList_toList]
    _ = word :: controlSequences letters t := by
        rw [List.append_cons, sequences_append_of_not_mem hrest]
        rfl

end Tex

/-! ## The frame of a span -/

namespace StyleFlags

/-- The control sequences of a cleaned span: a switch for each colour, the styles from the
outside in, and the switch back to the colour of ordinary text. -/
def controlSequences (f : StyleFlags) : List String :=
  f.colours.map (fun _ => "color") ++ f.decorations.reverse.map (fun name => "style" ++ name)
    ++ ["color"]

variable {letters : Tex.Letters} {f : StyleFlags} {name : String}

theorem isWord_colour (h : name ∈ f.colours) : Tex.IsWord name := by
  have hnames : ∀ c ∈ Document.builtInColours, Tex.IsWord c.1 := by decide
  obtain ⟨c, hc, rfl⟩ := colours_builtIn h
  exact hnames c hc

theorem isWord_decoration (h : name ∈ f.decorations) : Tex.IsWord ("style" ++ name) := by
  have hnames : ∀ s ∈ Document.builtInStyles, Tex.IsWord ("style" ++ s.1) := by decide
  obtain ⟨s, hs, rfl⟩ := decorations_builtIn h
  exact hnames s hs

/-- A switch is one control sequence; the name of the colour is its argument. -/
theorem controlSequences_switch (h : Tex.IsWord name) (t : String) :
    Tex.controlSequences letters (Tex.command "color" [name] ++ t)
      = "color" :: Tex.controlSequences letters t := by
  have hcommand : Tex.command "color" [name] ++ t
      = Tex.control "color" ++ "\x7b" ++ (name ++ "\x7d" ++ t) := by
    simp [Tex.command, Tex.group, String.append_assoc]
  have hargument : '\\' ∉ (name ++ "\x7d").toList := by
    simpa using Tex.backslash_not_mem h
  rw [hcommand, Tex.controlSequences_control (by decide),
    Tex.controlSequences_append_of_not_mem hargument]

theorem controlSequences_switches {names : List String} (h : ∀ name ∈ names, Tex.IsWord name)
    (t : String) :
    Tex.controlSequences letters
        (String.join (names.map fun name => Tex.command "color" [name]) ++ t)
      = names.map (fun _ => "color") ++ Tex.controlSequences letters t := by
  induction names with
  | nil => rw [List.map_nil, String.join_nil, String.empty_append, List.map_nil, List.nil_append]
  | cons name names ih =>
    obtain ⟨hname, hnames⟩ := List.forall_mem_cons.mp h
    rw [List.map_cons, String.join_cons, String.append_assoc, controlSequences_switch hname,
      ih hnames, List.map_cons, List.cons_append]

theorem controlSequences_openings {names : List String}
    (h : ∀ name ∈ names, Tex.IsWord ("style" ++ name)) (t : String) :
    Tex.controlSequences letters
        (String.join (names.map fun name => Tex.control ("style" ++ name) ++ "\x7b") ++ t)
      = names.map (fun name => "style" ++ name) ++ Tex.controlSequences letters t := by
  induction names with
  | nil => rw [List.map_nil, String.join_nil, String.empty_append, List.map_nil, List.nil_append]
  | cons name names ih =>
    obtain ⟨hname, hnames⟩ := List.forall_mem_cons.mp h
    rw [List.map_cons, String.join_cons, String.append_assoc, Tex.controlSequences_control hname,
      ih hnames, List.map_cons, List.cons_append]

theorem backslash_not_mem_closings (names : List String) :
    '\\' ∉ (String.join (names.map fun _ => "\x7d")).toList := by
  induction names with
  | nil => decide
  | cons name names ih =>
    rw [List.map_cons, String.join_cons, String.toList_append, List.mem_append, not_or]
    exact ⟨by decide, ih⟩

/-- **A cleaned span is its frame.** The control sequences of a cleaned span, in front of any
text, are those of its flags; neither the text in it nor the text behind it touches them. -/
theorem controlSequences_mark (h : f.clean = true) (text t : String) :
    Tex.controlSequences letters (f.mark text ++ t)
      = f.controlSequences ++ Tex.controlSequences letters t := by
  have hcontent : '\\' ∉ (Styler.content text f).toList := by
    rw [Styler.content, if_pos h]
    exact fun hmem => (Text.plain_of_mem_clean hmem).1 rfl
  have hstyles : ∀ name ∈ f.decorations.reverse, Tex.IsWord ("style" ++ name) :=
    fun name hname => isWord_decoration (List.mem_reverse.mp hname)
  rw [mark, opening, closing]
  simp only [String.append_assoc]
  rw [controlSequences_switches fun name => isWord_colour, controlSequences_openings hstyles,
    Tex.controlSequences_append_of_not_mem hcontent,
    Tex.controlSequences_append_of_not_mem (backslash_not_mem_closings _),
    controlSequences_switch (by decide), controlSequences]
  simp only [List.append_assoc, List.singleton_append]

end StyleFlags

/-! ## Cleaned spans in a document -/

namespace Document

/-- **Cleaned text brings no control sequence and changes none.** After any calls on a new
document, a span that is cleaned is marked, and its control sequences are a switch for each
colour of its flags, the styles of the flags from the outside in, and the switch back. A
version that is marked by one of the four cleaning presets has those of the preset. Neither
the text nor the history nor the document matters, whatever characters are letters. -/
theorem cleaned_spans_keep_control_sequences {o : DocumentOptions} {d₀ : Document}
    (h : Document.new o = .ok d₀) (operations : List Operation) (letters : Tex.Letters) :
    let d := Operation.runAll operations d₀
    (∀ flags : StyleFlags, flags.clean = true → ∀ text : String,
      ∃ fragment, (styleText text flags).on d = (.ok fragment, d) ∧
        Tex.controlSequences letters fragment
          = flags.colours.map (fun _ => "color")
            ++ flags.decorations.reverse.map (fun name => "style" ++ name) ++ ["color"]) ∧
    ∀ entry ∈ [(RevisionPreset.newClean, ["color", "styleul", "color"]),
        (.oldClean, ["color", "stylest", "color"]), (.eqClean, ["color", "color"]),
        (.neqClean, ["color", "stylest", "color", "color", "styleul", "color"])],
      ∀ (history : List String) (n : Nat) (m : Option Nat), n < history.length →
        (entry.1.isPaired = true → m.getD 0 < history.length) →
        ∃ fragment, (revise entry.1 history n m).on d = (.ok fragment, d) ∧
          Tex.controlSequences letters fragment = entry.2 := by
  intro d
  have hcomplete : d.styler.Complete := complete_styler ((tracks_new h).runAll operations)
  have hspan : ∀ flags : StyleFlags, flags.clean = true → ∀ text : String,
      Tex.controlSequences letters (flags.mark text) = flags.controlSequences := by
    intro flags hclean text
    have hmark : Tex.controlSequences letters (flags.mark text ++ "")
        = flags.controlSequences ++ Tex.controlSequences letters "" :=
      StyleFlags.controlSequences_mark hclean text ""
    rwa [String.append_empty, show Tex.controlSequences letters "" = [] from rfl,
      List.append_nil] at hmark
  have hunpaired : ∀ preset : RevisionPreset, preset.isPaired = false →
      preset.flags.clean = true → ∀ (history : List String) (n : Nat) (m : Option Nat),
      n < history.length →
      ∃ fragment, (revise preset history n m).on d = (.ok fragment, d) ∧
        Tex.controlSequences letters fragment = preset.flags.controlSequences := by
    intro preset hpaired hclean history n m hn
    refine ⟨preset.flags.mark history[n], ?_, hspan _ hclean _⟩
    rw [revise_on, Styler.applyPreset_unpaired hcomplete hpaired hn]
  refine ⟨fun flags hclean text => ⟨flags.mark text, ?_, hspan flags hclean text⟩, ?_⟩
  · rw [styleText_on, Styler.style_eq hcomplete]
  · simp only [List.forall_mem_cons]
    refine ⟨?_, ?_, ?_, ?_, List.forall_mem_nil _⟩
    · exact fun history n m hn _ => hunpaired .newClean rfl rfl history n m hn
    · exact fun history n m hn _ => hunpaired .oldClean rfl rfl history n m hn
    · exact fun history n m hn _ => hunpaired .eqClean rfl rfl history n m hn
    · intro history n m hn hrange
      have hm : m.getD 0 < history.length := hrange rfl
      let prior := RevisionPreset.neqClean.priorFlags.mark history[m.getD 0]
      let current := RevisionPreset.neqClean.flags.mark history[n]
      refine ⟨prior ++ current, ?_, ?_⟩
      · rw [revise_on, Styler.applyPreset_paired hcomplete rfl hn hm]
        rfl
      · -- Both versions are cleaned, and each keeps to its frame.
        rw [StyleFlags.controlSequences_mark rfl, hspan _ rfl]
        rfl

/-- Text that is all backslashes and letters adds nothing to the three control sequences of an
addition, and neither do two such versions to a change. -/
theorem hostile_text_stays_text :
    let d := opened {} []
    (∃ fragment, (styleText "\\input\\color" { new := true, clean := true, underline := true }).on d
        = (.ok fragment, d) ∧
      Tex.controlSequences .ofAscii fragment = ["color", "styleul", "color"]) ∧
    ∃ fragment, (revise .neqClean ["abc", "\\def\\a"] 0 (some 1)).on d = (.ok fragment, d) ∧
      Tex.controlSequences .ofAscii fragment
        = ["color", "stylest", "color", "color", "styleul", "color"] := by
  obtain ⟨hstyle, hrevise⟩ := cleaned_spans_keep_control_sequences new_default [] .ofAscii
  refine ⟨hstyle { new := true, clean := true, underline := true } rfl "\\input\\color", ?_⟩
  exact hrevise (.neqClean, _) (by decide) ["abc", "\\def\\a"] 0 (some 1) (by decide)
    fun _ => by decide

end Document

end Galley
