/-
`Proofs/Constructs.lean` -- fixed texts with balanced texts in them are balanced.

What the library writes of its own accord is a frame around the texts of its caller: a
construct, a directive, a definition. Each frame is balanced with its gaps left empty, and
a gap that is filled with a balanced text goes unnoticed, so a frame with balanced texts in
it is balanced. Names have no braces at all, since the characters that a name may consist
of are checked. Neither has a number, nor a watermark, which may hold no special character.
Nothing here depends on how a document came about.
-/
import Galley.Construct
import Galley.Document.Preamble
import Galley.Proofs.Braces
import Galley.Proofs.ControlWords
import Galley.Proofs.DecimalText

set_option autoImplicit false

namespace Galley

open Tex

/-! ## Texts without braces -/

namespace Tex

theorem braceless_ofList {cs : List Char} (h : ∀ c ∈ cs, c ≠ '\x7b' ∧ c ≠ '\x7d') :
    Braceless (String.ofList cs) := by
  intro c hc
  rw [String.toList_ofList] at hc
  exact h c hc

theorem braceless_join {texts : List String} (h : ∀ text ∈ texts, Braceless text) :
    Braceless (String.join texts) := by
  induction texts with
  | nil => decide
  | cons text texts ih =>
    obtain ⟨htext, htexts⟩ := List.forall_mem_cons.mp h
    rw [String.join_cons]
    exact htext.append (ih htexts)

/-- A letter is no brace. -/
theorem IsWord.braceless {word : String} (h : IsWord word) : Braceless word := by
  intro c hc
  have hletter : c.isAlpha = true := h c hc
  exact ne_brace (by decide) (by decide) hletter

/-- A digit is no brace. -/
theorem ne_brace_of_digit {n : Nat} {c : Char} (h : c ∈ Nat.toDigits 10 n) :
    c ≠ '\x7b' ∧ c ≠ '\x7d' := by
  have hdigit : c.isDigit = true := Nat.isDigit_of_mem_toDigits (by omega) (by omega) h
  exact ne_brace (by decide) (by decide) hdigit

theorem braceless_toString (n : Nat) : Braceless (toString n) :=
  braceless_ofList fun _ hc => ne_brace_of_digit hc

end Tex

/-- A number that is written out consists of digits, a point and a sign, or is a name. -/
theorem Decimal.braceless_text {f : Format} (b : Binary f) : Braceless b.text := by
  cases b with
  | nan =>
    have hname : Braceless "NaN" := by decide
    exact hname
  | infinite negative =>
    have hname : Braceless (if negative then "-inf" else "inf") := by cases negative <;> decide
    exact hname
  | finite negative mantissa exponent =>
    obtain ⟨whole, fraction, htext, -, hdigits⟩ := toList_text f negative mantissa exponent
    have hdigit : ∀ c ∈ whole ++ fraction, c ≠ '\x7b' ∧ c ≠ '\x7d' :=
      fun c hc => ne_brace (by decide) (by decide) (hdigits c hc)
    intro c hc
    rw [htext, pointed, List.mem_append, List.mem_append] at hc
    rcases hc with hsign | hwhole | hfraction
    · obtain rfl : c = '-' := by
        cases negative with
        | true => exact List.mem_singleton.mp hsign
        | false => cases hsign
      decide
    · exact hdigit c (List.mem_append_left _ hwhole)
    · split at hfraction
      · cases hfraction
      · rcases List.mem_cons.mp hfraction with rfl | hfraction
        · decide
        · exact hdigit c (List.mem_append_right _ hfraction)

/-- A watermark that passes its check has no special character in it. -/
theorem Watermark.braceless_of_check {mark : Watermark} (h : mark.check = .ok ()) :
    Braceless mark.text := by
  rw [check] at h
  split at h
  · cases h
  · next hnone =>
    intro c hc
    have hplain : (!specials.contains c) = true := by simpa using List.find?_eq_none.mp hnone c hc
    exact ne_brace (p := fun c => !specials.contains c) (by decide) (by decide) hplain

/-- Two digits of a component are no braces. -/
theorem Colour.braceless_toHtml (colour : Colour) : Braceless colour.toHtml := by
  have hdigit : ∀ value < 16, Text.upperHexDigit value ≠ '\x7b' ∧
      Text.upperHexDigit value ≠ '\x7d' := by decide
  have hcomponent : ∀ n : UInt8, ∀ c ∈ componentDigits n, c ≠ '\x7b' ∧ c ≠ '\x7d' := by
    intro n c hc
    have hn : n.toNat < 256 := n.toNat_lt
    rcases List.mem_cons.mp hc with rfl | hc
    · exact hdigit _ (by omega)
    · rw [List.mem_singleton.mp hc]
      exact hdigit _ (by omega)
  refine braceless_ofList fun c hc => ?_
  rcases List.mem_append.mp hc with hc | hc
  · rcases List.mem_append.mp hc with hc | hc
    · exact hcomponent _ c hc
    · exact hcomponent _ c hc
  · exact hcomponent _ c hc

/-! ## Constructs -/

namespace Construct

variable {a b : String}

theorem balanced_beginDocument : Balanced beginDocument := by decide

theorem balanced_endDocument : Balanced endDocument := by decide

theorem balanced_lineBreak : Balanced lineBreak := by decide

theorem balanced_pageBreak : Balanced pageBreak := by decide

/-! ### Frames around texts -/

theorem balanced_heading (h : Balanced a) : Balanced (heading a) := by
  have hcommand : Balanced (command "section*" [a]) :=
    balanced_command (by decide) (List.forall_mem_singleton.mpr h)
  exact (Balanced.append (by decide) hcommand).append (by decide)

theorem balanced_subheading (h : Balanced a) : Balanced (subheading a) := by
  have hcommand : Balanced (command "subsection*" [a]) :=
    balanced_command (by decide) (List.forall_mem_singleton.mpr h)
  exact (Balanced.append (by decide) hcommand).append (by decide)

theorem balanced_definition (ha : Balanced a) (hb : Balanced b) : Balanced (definition a b) := by
  have hterm : Balanced ("\"" ++ a ++ "\"") :=
    (Balanced.append (by decide) ha).append (by decide)
  have hcommand : Balanced (command "paragraph" ["\"" ++ a ++ "\"", b]) :=
    balanced_command (by decide) (by simp [hterm, hb])
  exact hcommand.append (by decide)

theorem balanced_plain (h : Balanced a) : Balanced (plain a) := by
  have hindent : Balanced (Tex.control "noindent" ++ " ") := by decide
  exact (hindent.append h).append (by decide)

theorem balanced_indented (h : Balanced a) : Balanced (indented a) := by
  have hindent : Balanced (Tex.control "indent" ++ " ") := by decide
  exact (hindent.append h).append (by decide)

theorem balanced_bold (h : Balanced a) : Balanced (bold a) := by
  have hcommand : Balanced (command "textbf" [a]) :=
    balanced_command (by decide) (List.forall_mem_singleton.mpr h)
  exact hcommand.append (by decide)

theorem balanced_underlined (h : Balanced a) : Balanced (underlined a) := by
  have hcommand : Balanced (command "underline" [a]) :=
    balanced_command (by decide) (List.forall_mem_singleton.mpr h)
  exact hcommand.append (by decide)

theorem balanced_paragraph (ha : Balanced a) (hb : Balanced b) : Balanced (paragraph a b) := by
  have hcommand : Balanced (command "paragraph" [a, b]) :=
    balanced_command (by decide) (by simp [ha, hb])
  exact hcommand.append (by decide)

/-- The sides differ in fixed texts only. -/
theorem balanced_floatingHeading (side : Side) (h : Balanced a) :
    Balanced (floatingHeading side a) := by
  have hbefore : Balanced side.before := by cases side <;> decide
  have hafter : Balanced side.after := by cases side <;> decide
  unfold floatingHeading
  repeat' with_reducible apply Balanced.append
  all_goals first | with_reducible assumption | decide

section Numbered

variable {step number : Fragment}

theorem balanced_numberedParagraph (hstep : Balanced step) (hnumber : Balanced number)
    (ha : Balanced a) (hb : Balanced b) : Balanced (numberedParagraph step number a b) := by
  have hbold : Balanced (command "textbf" [number ++ " ."]) :=
    balanced_command (by decide) (List.forall_mem_singleton.mpr (hnumber.append (by decide)))
  have hnote : Balanced (command "marginnote" [command "textbf" [number ++ " ."]]) :=
    balanced_command (by decide) (List.forall_mem_singleton.mpr hbold)
  have hparagraph : Balanced (command "paragraph" [a]) :=
    balanced_command (by decide) (List.forall_mem_singleton.mpr ha)
  rw [numberedParagraph]
  repeat' with_reducible apply Balanced.append
  all_goals first | with_reducible assumption | decide

theorem balanced_numberedHeading (hstep : Balanced step) (hnumber : Balanced number)
    (h : Balanced a) : Balanced (numberedHeading step number a) := by
  have htitle : Balanced (Tex.control "bf" ++ " ARTICLE " ++ number ++ Tex.control " " ++ "-"
      ++ Tex.control " " ++ a) := by
    repeat' with_reducible apply Balanced.append
    all_goals first | with_reducible assumption | decide
  have hcommand : Balanced (command "subsubsection*" [Tex.control "bf" ++ " ARTICLE " ++ number
      ++ Tex.control " " ++ "-" ++ Tex.control " " ++ a]) :=
    balanced_command (by decide) (List.forall_mem_singleton.mpr htitle)
  exact ((hstep.append (by decide)).append hcommand).append (by decide)

end Numbered

/-! ### Tables and lists -/

theorem balanced_tableRow {cells : List String} (h : ∀ cell ∈ cells, Balanced cell)
    (isHead : Bool) : Balanced (tableRow cells isHead) := by
  have hcells : Balanced (String.intercalate " & " cells) := balanced_intercalate (by decide) h
  have hhead : Balanced (if isHead then Tex.control "endhead" ++ "\n" else "") := by
    cases isHead <;> decide
  rw [tableRow]
  repeat' with_reducible apply Balanced.append
  all_goals first | with_reducible assumption | decide

theorem balanced_columnTypes {columns : List String} (h : ∀ column ∈ columns, Balanced column) :
    Balanced (columnTypes columns) := by
  refine Balanced.append (by decide) (balanced_join fun text htext => ?_)
  obtain ⟨column, hcolumn, rfl⟩ := List.mem_map.mp htext
  exact (Balanced.append (by decide) (h column hcolumn)).append (by decide)

/-- A table that is not refused is balanced. -/
theorem balanced_table {columns : List String} {rows : List (List String)} {fragment : Fragment}
    (hcolumns : ∀ column ∈ columns, Balanced column)
    (hrows : ∀ row ∈ rows, ∀ cell ∈ row, Balanced cell)
    (h : table columns rows = .ok fragment) : Balanced fragment := by
  have hentries : Balanced
      (String.join (rows.zipIdx.map fun entry => tableRow entry.1 (entry.2 == 0))) := by
    refine balanced_join fun text htext => ?_
    obtain ⟨⟨cells, row⟩, hrow, rfl⟩ := List.mem_map.mp htext
    exact balanced_tableRow (hrows cells (List.fst_mem_of_mem_zipIdx hrow)) _
  have hbegin : Balanced
      (command "begin" ["tabularx", Tex.control "textwidth", columnTypes columns]) := by
    refine balanced_command (by decide) ?_
    simp only [List.forall_mem_cons]
    exact ⟨by decide, by decide, balanced_columnTypes hcolumns, List.forall_mem_nil _⟩
  rw [table] at h
  split at h
  · cases h
  · split at h
    · cases h
    · obtain rfl := Except.ok.inj h
      repeat' with_reducible apply Balanced.append
      all_goals first | with_reducible assumption | decide

/-- A list that is not refused is balanced; its labels are letters. -/
theorem balanced_list {items : List String} {fragment : Fragment}
    (hitems : ∀ item ∈ items, Balanced item) (h : list items = .ok fragment) :
    Balanced fragment := by
  have hletters : ∀ text ∈ labels.map Char.toString, Braceless text := by decide
  have hlabels : ∀ label ∈ labels, Balanced (Tex.group ("(" ++ label.toString ++ ")")) := by
    intro label hlabel
    have hletter : Braceless label.toString := hletters _ (List.mem_map_of_mem hlabel)
    exact ((Balanced.append (by decide) hletter.balanced).append (by decide)).group
  have hentries : Balanced (String.join (List.zipWith listItem labels items)) := by
    refine balanced_join fun text htext => ?_
    rw [← List.map_uncurry_zip_eq_zipWith] at htext
    obtain ⟨⟨label, item⟩, hzip, rfl⟩ := List.mem_map.mp htext
    obtain ⟨hlabel, hitem⟩ := List.of_mem_zip hzip
    exact ((hlabels label hlabel).append (hitems item hitem).group).append (by decide)
  rw [list] at h
  split at h
  · cases h
  · obtain rfl := Except.ok.inj h
    repeat' with_reducible apply Balanced.append
    all_goals first | with_reducible assumption | decide

end Construct

/-! ## The preamble -/

/-- What the options have to say in text. Values of the `HTML` model are not among it, since
they are read as digits, and neither is a watermark, which is checked. -/
def DocumentOptions.texts (o : DocumentOptions) : List String :=
  o.documentClass :: o.classOptions ++ o.packages.flatMap (fun p => p.name :: p.options)
    ++ o.graphicsPath.toList ++ o.body
    ++ (o.colours.filter fun c => c.model ≠ .html).map ColourOverride.value

namespace DocumentOptions

variable {o : DocumentOptions}

theorem body_mem_texts {fragment : Fragment} (h : fragment ∈ o.body) : fragment ∈ o.texts := by
  simp [texts, h]

theorem value_mem_texts {c : ColourOverride} (h : c ∈ o.colours) (hmodel : c.model ≠ .html) :
    c.value ∈ o.texts := by
  have hvalue : c.value ∈ (o.colours.filter fun c => c.model ≠ .html).map ColourOverride.value :=
    List.mem_map_of_mem (List.mem_filter.mpr ⟨h, by simpa using hmodel⟩)
  exact List.mem_append_right _ hvalue

end DocumentOptions

theorem Package.balanced_directive {p : Package} (hname : Balanced p.name)
    (hoptions : ∀ option ∈ p.options, Balanced option) : Balanced p.directive := by
  have hlist : Balanced (String.intercalate "," p.options) :=
    balanced_intercalate (by decide) hoptions
  rw [directive]
  split
  · exact (Balanced.append (by decide) (by decide)).append hname.group
  · exact (Balanced.append (by decide) hlist.bracket).append hname.group

namespace Preamble

theorem balanced_documentClass {o : DocumentOptions} (hclass : Balanced o.documentClass)
    (hoptions : ∀ option ∈ o.classOptions, Balanced option) : Balanced (documentClass o) := by
  have hlist : Balanced (String.intercalate "," o.classOptions) :=
    balanced_intercalate (by decide) hoptions
  rw [documentClass]
  split
  · exact (Balanced.append (by decide) (by decide)).append hclass.group
  · exact (Balanced.append (by decide) hlist.bracket).append hclass.group

/-- A slash at the end of a path does not matter. -/
theorem balanced_graphicsPath {path : String} (h : Balanced path) :
    Balanced (graphicsPath path) := by
  have hslash : Balanced (path ++ "/") := h.append (by decide)
  rw [graphicsPath]
  refine balanced_command (by decide) (List.forall_mem_singleton.mpr ?_)
  split
  · exact h.group
  · exact hslash.group

theorem balanced_configuration : ∀ fragment ∈ configuration, Balanced fragment := by
  decide

theorem balanced_block {lines : List String} (h : ∀ line ∈ lines, Balanced line) :
    Balanced (block lines) :=
  balanced_intercalate (by decide) h

/-- The commands of hanging lists are balanced line by line, and their bodies are. -/
theorem balanced_listCommands : Balanced listCommands := by
  have hcommand : ∀ {opening : String} {lines : List String}, Balanced opening →
      (∀ line ∈ lines, Balanced line) → Balanced (opening ++ Tex.group (block lines)) :=
    fun hopening hlines => hopening.append (balanced_block hlines).group
  unfold listCommands
  refine balanced_block ?_
  simp only [List.forall_mem_cons]
  exact ⟨by decide, hcommand (by decide) (by decide), hcommand (by decide) (by decide),
    hcommand (by decide) (by decide), hcommand (by decide) (by decide),
    hcommand (by decide) (by decide), by decide, List.forall_mem_nil _⟩

theorem balanced_watermark {mark : Watermark} (h : mark.check = .ok ()) :
    ∀ fragment ∈ watermark mark, Balanced fragment := by
  have htext := (Watermark.braceless_of_check h).balanced
  have hscale := (Decimal.braceless_text mark.scale).balanced
  simp only [watermark, List.forall_mem_cons]
  refine ⟨by decide, ?_, ?_, List.forall_mem_nil _⟩
  · exact balanced_command (by decide) (List.forall_mem_singleton.mpr htext)
  · exact balanced_command (by decide) (List.forall_mem_singleton.mpr hscale)

/-- The directives of options with balanced texts are balanced, if the watermark passes its
check. -/
theorem balanced_system {o : DocumentOptions} (h : ∀ text ∈ o.texts, Balanced text)
    (hmark : ∀ mark ∈ o.watermark, mark.check = .ok ()) :
    ∀ fragment ∈ system o, Balanced fragment := by
  simp only [DocumentOptions.texts, List.forall_mem_append, List.forall_mem_cons] at h
  obtain ⟨⟨⟨⟨⟨hclass, hclassOptions⟩, hpackages⟩, hpath⟩, -⟩, -⟩ := h
  simp only [system, List.forall_mem_append, List.forall_mem_cons]
  refine ⟨⟨⟨⟨⟨by decide, balanced_documentClass hclass hclassOptions, List.forall_mem_nil _⟩, ?_⟩,
    ?_⟩, balanced_configuration⟩, ?_⟩
  · intro fragment hfragment
    obtain ⟨p, hp, rfl⟩ := List.mem_map.mp hfragment
    have htexts : ∀ text ∈ p.name :: p.options, Balanced text :=
      fun text htext => hpackages text (List.mem_flatMap.mpr ⟨p, hp, htext⟩)
    obtain ⟨hname, hoptions⟩ := List.forall_mem_cons.mp htexts
    exact Package.balanced_directive hname hoptions
  · cases hgraphics : o.graphicsPath with
    | none => exact List.forall_mem_nil _
    | some path =>
      rw [hgraphics] at hpath
      exact List.forall_mem_singleton.mpr
        (balanced_graphicsPath (hpath path (List.mem_singleton_self path)))
  · rw [shownWatermark]
    split
    · exact List.forall_mem_nil _
    · cases hshown : o.watermark with
      | none => exact List.forall_mem_nil _
      | some mark => exact balanced_watermark (hmark mark hshown)

end Preamble

/-! ## Definitions -/

namespace ColourEntry

variable {entry : ColourEntry}

/-- The braces are among the characters that a colour name may not contain. -/
theorem braceless_of_isName {name : String} (h : isName name = true) : Braceless name := by
  rw [isName, Bool.and_eq_true, List.all_eq_true] at h
  intro c hc
  exact ne_brace (p := fun c => !(Text.isBlank c || forbiddenInColourName.contains c)) (by decide)
    (by decide) (h.2 c hc)

/-- A value in normal form is digits, or a balanced text trimmed. -/
theorem balanced_normalise {model : ColourModel} {value normal : String}
    (hvalue : model ≠ .html → Balanced value) (h : normalise model value = .ok normal) :
    Balanced normal := by
  have htrimmed : model ≠ .html → normalise model value = .ok (Text.trim value) := by
    intro hmodel
    cases model with
    | html => exact absurd rfl hmodel
    | _ => rfl
  by_cases hmodel : model = .html
  · subst hmodel
    cases hcolour : Colour.parseHex value with
    | error e =>
      rw [normalise, hcolour] at h
      cases h
    | ok colour =>
      rw [normalise, hcolour] at h
      obtain rfl := Except.ok.inj h
      exact (Colour.braceless_toHtml colour).balanced
  · rw [htrimmed hmodel] at h
    obtain rfl := Except.ok.inj h
    exact (hvalue hmodel).trim

theorem balanced_entry (hname : Braceless entry.name) (hvalue : Balanced entry.value) :
    Balanced (Registry.Entry.definition entry) := by
  have hmodel : ∀ model : ColourModel, Balanced model.name := by
    intro model
    cases model <;> decide
  refine balanced_command (by decide) ?_
  simp only [List.forall_mem_cons]
  exact ⟨hname.balanced, hmodel entry.model, hvalue, List.forall_mem_nil _⟩

theorem balanced_switch (hname : Braceless entry.name) : Balanced entry.switch :=
  balanced_command (by decide) (List.forall_mem_singleton.mpr hname.balanced)

end ColourEntry

namespace StyleEntry

variable {entry : StyleEntry}

theorem balanced_controlSequence (hname : Braceless entry.name) :
    Balanced entry.controlSequence := by
  have hstyle : Braceless "style" := by decide
  exact balanced_control (hstyle.append hname)

/-- The parameter stands between the opening and the closing text, where any balanced text
may stand. -/
theorem balanced_entry (hname : Braceless entry.name)
    (htexts : Balanced (entry.opening ++ entry.closing)) :
    Balanced (Registry.Entry.definition entry) := by
  have hdef : Balanced (Tex.control "def" ++ entry.controlSequence ++ "#1") :=
    (Balanced.append (by decide) (balanced_controlSequence hname)).append (by decide)
  have hbody : Balanced (entry.opening ++ "#1" ++ entry.closing) := htexts.insert (by decide)
  exact hdef.append hbody.group

theorem balanced_apply (hname : Braceless entry.name) {text : String} (h : Balanced text) :
    Balanced (entry.apply text) :=
  (balanced_controlSequence hname).append h.group

end StyleEntry

namespace CommandEntry

variable {entry : CommandEntry}

theorem braceless_parameters (arity : Nat) : Braceless (parameters arity) := by
  refine braceless_join fun text htext => ?_
  obtain ⟨i, -, rfl⟩ := List.mem_map.mp htext
  have hsharp : Braceless "#" := by decide
  exact hsharp.append (braceless_toString (i + 1))

theorem balanced_entry (hname : Braceless entry.name) (hbody : Balanced entry.body) :
    Balanced (Registry.Entry.definition entry) := by
  have hdef : Balanced (Tex.control "def" ++ Tex.control entry.name) :=
    Balanced.append (by decide) (balanced_control hname)
  exact (hdef.append (braceless_parameters entry.arity).balanced).append hbody.group

/-- A call that is not refused is the name with its arguments in braces. -/
theorem balanced_call (hname : Braceless entry.name) {arguments : List String}
    (h : ∀ argument ∈ arguments, Balanced argument) {fragment : Fragment}
    (hcall : entry.call arguments = .ok fragment) : Balanced fragment := by
  rw [call] at hcall
  split at hcall
  · obtain rfl := Except.ok.inj hcall
    split
    · exact balanced_command hname (by decide)
    · exact balanced_command hname h
  · cases hcall

end CommandEntry

end Galley
