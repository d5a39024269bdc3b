/-
`Proofs/Balance.lean` -- a document never unbalances braces.

The texts of a caller go into a document inside the frames of the library, and the frames
are balanced. So if every text is balanced, every fragment is, and the source text with
them. Of a style only the opening and the closing text together have to be balanced, since
nothing is ever set between them that is not balanced itself.

A document is balanced when its fragments are, when the texts of its options are, which may
be written again, and when no name that it knows has a brace in it. One registration keeps
this, then one call by its effect, then any calls. The look-ups leave the document alone;
what they answer is balanced because the names are braceless and the texts they are given
are balanced.
-/
import Galley.Proofs.Constructs
import Galley.Proofs.Marking

set_option autoImplicit false

namespace Galley

open Registry

/-! ## The texts of calls -/

namespace Operation

/-- The texts that a call is given to write, as they have to be balanced. Values of the
`HTML` model are read as digits, and the two texts of a style are balanced together. -/
def texts : Operation → List String
  | push text => [text]
  | pushIf _ text => [text]
  | pushIfElse _ a b => [a, b]
  | cleanPush text => [text]
  | cleanPushIf _ text => [text]
  | cleanPushIfElse _ a b => [a, b]
  | table columns rows => columns ++ rows.flatten
  | list items => items
  | heading title => [title]
  | subheading title => [title]
  | definition term body => [term, body]
  | plain text => [text]
  | indented text => [text]
  | bold text => [text]
  | underlined text => [text]
  | paragraph label text => [label, text]
  | numberedParagraph label text => [label, text]
  | numberedHeading title => [title]
  | floatingHeading _ text => [text]
  | addColour _ value model => if model = .html then [] else [value]
  | addStyle _ opening closing => [opening ++ closing]
  | addCommand _ _ body => [body]
  | init options => options.texts
  | _ => []

/-- The texts that a look-up is given, which are answered and not written. -/
def lookupTexts : Operation → List String
  | style _ text => [text]
  | call _ arguments => arguments
  | styleText text _ => [text]
  | revise _ history _ _ => history
  | _ => []

end Operation

/-! ## Registrations -/

/-- The fragment of the registration is balanced, and its name has no brace. -/
structure Registration.Balanced (r : Registration) : Prop where
  fragment : Tex.Balanced r.fragment
  name : Tex.Braceless r.name

namespace Registration

theorem balanced_counter {name : String} (h : Tex.Braceless name) : (counter name).Balanced where
  fragment := Tex.balanced_command (by decide) (List.forall_mem_singleton.mpr h.balanced)
  name := h

theorem balanced_style {name opening closing : String} {entry : StyleEntry}
    (hmake : StyleEntry.make name opening closing = .ok entry)
    (h : Tex.Balanced (opening ++ closing)) : (style entry).Balanced := by
  obtain ⟨hcheck, rfl⟩ := style_of_make hmake
  have hname : Tex.Braceless name := (isWord_of_check hcheck).braceless
  exact ⟨StyleEntry.balanced_entry hname h, hname⟩

theorem balanced_colour {name value : String} {model : ColourModel} {entry : ColourEntry}
    (hmake : ColourEntry.make name value model = .ok entry)
    (h : model ≠ .html → Tex.Balanced value) : (colour entry).Balanced := by
  obtain ⟨hisName, hvalue, rfl, -⟩ := colour_of_make hmake
  have hname : Tex.Braceless entry.name := ColourEntry.braceless_of_isName hisName
  exact ⟨ColourEntry.balanced_entry hname (ColourEntry.balanced_normalise h hvalue), hname⟩

theorem balanced_command {name body : String} {arity : Nat} {entry : CommandEntry}
    (hmake : CommandEntry.make name arity body = .ok entry) (h : Tex.Balanced body) :
    (command entry).Balanced := by
  obtain ⟨hcheck, rfl⟩ := command_of_make hmake
  have hname : Tex.Braceless name := (isWord_of_check hcheck).braceless
  exact ⟨CommandEntry.balanced_entry hname h, hname⟩

/-- The built-in names could have been registered by a call, and with balanced texts. -/
theorem balanced_builtIn : ∀ r ∈ Document.builtIns, r.Balanced := by
  have hcounters : ∀ name ∈ Document.builtInCounters, Tex.Braceless name := by decide
  have hstyles : ∀ s ∈ Document.builtInStyles, Tex.Balanced (s.2.1 ++ s.2.2) := by decide
  intro r hr
  rw [Document.builtIns, List.mem_append, List.mem_append] at hr
  rcases hr with (hr | hr) | hr
  · obtain ⟨name, hname, rfl⟩ := List.mem_map.mp hr
    exact balanced_counter (hcounters name hname)
  · obtain ⟨s, hs, rfl⟩ := List.mem_map.mp hr
    exact balanced_style (Document.builtInStyles_made s hs) (hstyles s hs)
  · obtain ⟨c, hc, rfl⟩ := List.mem_map.mp hr
    exact balanced_colour (Document.builtInColours_made c hc) fun hmodel => absurd rfl hmodel

end Registration

/-! ## Balanced documents -/

/-- Every fragment of the document is balanced, and so is every text of its options. No name
that it knows has a brace. -/
structure Document.Balanced (d : Document) : Prop where
  options : ∀ text ∈ d.options.texts, Tex.Balanced text
  fragments : ∀ p, ∀ fragment ∈ d.buffer.fragments p, Tex.Balanced fragment
  names : ∀ kind name, d.Has kind name → Tex.Braceless name

theorem Buffer.mem_append {b : Buffer} {p q : Partition} {fragment f : Fragment}
    (h : f ∈ (b.append p fragment).fragments q) : f ∈ b.fragments q ∨ f = fragment := by
  have happend : f ∈ b.fragments q ++ [fragment] ∨ f ∈ b.fragments q := by
    cases p <;> cases q <;> first | exact .inl h | exact .inr h
  rcases happend with h | h
  · exact (List.mem_append.mp h).imp_right List.mem_singleton.mp
  · exact .inl h

namespace Document

variable {d : Document}

/-! ### One registration -/

/-- A registration makes its own name known and no other one. -/
theorem has_register {r : Registration} {kind : Kind} {name : String}
    (h : (d.register r).Has kind name) : d.Has kind name ∨ r.name = name := by
  cases r with
  | counter counter =>
    by_cases hdeclared : d.counters.contains counter = true
    · rw [register_declared hdeclared] at h
      exact .inl h
    · rw [register_undeclared hdeclared] at h
      cases kind with
      | counter => exact Counters.contains_declare h
      | _ => exact .inl h
  | style entry =>
    cases kind with
    | style => exact contains_insert h
    | _ => exact .inl h
  | colour entry =>
    cases kind with
    | colour => exact contains_insert h
    | _ => exact .inl h
  | command entry =>
    cases kind with
    | command => exact contains_insert h
    | _ => exact .inl h

/-- A registration adds its fragment to the definitions, or nothing if it is that of a counter
that exists. -/
theorem buffer_register (d : Document) (r : Registration) :
    (d.register r).buffer = d.buffer ∨
      (d.register r).buffer = d.buffer.append .definitions r.fragment := by
  cases r with
  | counter counter =>
    by_cases hdeclared : d.counters.contains counter = true
    · rw [register_declared hdeclared]
      exact .inl rfl
    · rw [register_undeclared hdeclared]
      exact .inr rfl
  | _ => exact .inr rfl

theorem Balanced.register (h : d.Balanced) {r : Registration} (hr : r.Balanced) :
    (d.register r).Balanced where
  options := by
    rw [options_register]
    exact h.options
  fragments := by
    intro p f hf
    rcases buffer_register d r with hbuffer | hbuffer
    · rw [hbuffer] at hf
      exact h.fragments p f hf
    · rw [hbuffer] at hf
      rcases Buffer.mem_append hf with hf | rfl
      · exact h.fragments p f hf
      · exact hr.fragment
  names := by
    intro kind name hname
    rcases has_register hname with hname | rfl
    · exact h.names kind name hname
    · exact hr.name

theorem Balanced.foldl_register (h : d.Balanced) {l : List Registration}
    (hl : ∀ r ∈ l, r.Balanced) : (l.foldl Document.register d).Balanced := by
  induction l generalizing d with
  | nil => exact h
  | cons r l ih =>
    obtain ⟨hr, hrest⟩ := List.forall_mem_cons.mp hl
    exact ih (h.register hr) hrest

/-! ### Starting over -/

/-- Options that are admitted have no watermark, or one that passes its check. -/
theorem check_of_admitted {o : DocumentOptions} {entries : List ColourEntry}
    (h : admitted o = .ok entries) : ∀ mark ∈ o.watermark, mark.check = .ok () := by
  intro mark hmark
  rw [admitted, Option.mem_def.mp hmark, Option.map_some] at h
  cases hcheck : mark.check with
  | ok u => rfl
  | error e =>
    rw [hcheck] at h
    cases h

/-- A document that is started with balanced texts is balanced. -/
theorem balanced_opened {o : DocumentOptions} {entries : List ColourEntry}
    (h : admitted o = .ok entries) (ho : ∀ text ∈ o.texts, Tex.Balanced text) :
    (opened o entries).Balanced := by
  -- Before anything is registered, the document has its system texts and the hanging lists.
  have hblank : (blank o).Balanced := by
    have hdefault : ∀ text ∈ ({} : DocumentOptions).texts, Tex.Balanced text := by decide
    refine ⟨hdefault, fun p f hf => ?_, fun kind name hname => ?_⟩
    · cases p with
      | system => exact Preamble.balanced_system ho (check_of_admitted h) f hf
      | definitions =>
        obtain rfl := List.mem_singleton.mp hf
        exact Preamble.balanced_listCommands
      | body => cases hf
    · cases kind <;> cases hname
  have hentries : ∀ r ∈ builtIns ++ entries.map Registration.colour, r.Balanced := by
    intro r hr
    rcases List.mem_append.mp hr with hr | hr
    · exact Registration.balanced_builtIn r hr
    · obtain ⟨entry, hentry, rfl⟩ := List.mem_map.mp hr
      rw [admitted_ok h] at hentry
      obtain ⟨c, hc, hmade⟩ := List.mem_filterMap.mp hentry
      cases hmake : ColourEntry.make c.name c.value c.model with
      | error cause =>
        rw [hmake] at hmade
        cases hmade
      | ok made =>
        rw [hmake] at hmade
        obtain rfl : made = entry := Option.some.inj hmade
        exact Registration.balanced_colour hmake fun hmodel =>
          ho c.value (DocumentOptions.value_mem_texts hc hmodel)
  have hregistered := hblank.foldl_register hentries
  -- The body comes last and from the options, so the registrations say nothing about it.
  refine ⟨ho, fun p f hf => ?_, hregistered.names⟩
  cases p with
  | body => exact ho f (DocumentOptions.body_mem_texts hf)
  | system => exact hregistered.fragments .system f hf
  | definitions => exact hregistered.fragments .definitions f hf

end Document

/-! ## One call -/

/-- What the effect writes is balanced. -/
def Effect.Balanced : Effect → Prop
  | write construct => ∀ fragment, construct = .ok fragment → Tex.Balanced fragment
  | number counter construct =>
    Tex.Braceless counter ∧ ∀ step number, Tex.Balanced step → Tex.Balanced number →
      Tex.Balanced (construct step number)
  | register made => ∀ r, made = .ok r → r.Balanced
  | start options => ∀ o ∈ options, ∀ text ∈ o.texts, Tex.Balanced text
  | _ => True

/-- **The effect of a call** with balanced texts writes what is balanced. -/
theorem Operation.balanced_effect {op : Operation} (h : ∀ text ∈ op.texts, Tex.Balanced text) :
    op.effect.Balanced := by
  have hwrite : ∀ {fragment : Fragment}, Tex.Balanced fragment →
      (Effect.write (.ok fragment)).Balanced :=
    fun hfragment _ hf => Except.ok.inj hf ▸ hfragment
  have hregister : ∀ {α : Type} {made : Except Registry.Error α} {wrap : α → Registration},
      (∀ entry, made = .ok entry → (wrap entry).Balanced) →
      (Effect.register (made.map wrap)).Balanced := by
    intro α made wrap hmade r hr
    obtain ⟨entry, hentry, rfl⟩ :=
      Registration.made_of_register (congrArg Effect.register hr)
    exact hmade entry hentry
  have hchosen : ∀ {condition : Bool} {a b : String}, Tex.Balanced a → Tex.Balanced b →
      Tex.Balanced (if condition then a else b) := by
    intro condition a b ha hb
    cases condition
    · exact hb
    · exact ha
  have hempty : Tex.Balanced "" := by decide
  have hparagraphs : Tex.Braceless Counters.paragraphs := by decide
  have hheadings : Tex.Braceless Counters.headings := by decide
  cases op with
  | push text => exact hwrite (h _ List.mem_cons_self)
  | pushIf condition text => exact hwrite (hchosen (h _ List.mem_cons_self) hempty)
  | pushIfElse condition a b =>
    have hb := h b (List.mem_cons_of_mem _ List.mem_cons_self)
    exact hwrite (hchosen (h a List.mem_cons_self) hb)
  | cleanPush text => exact hwrite (h _ List.mem_cons_self).clean
  | cleanPushIf condition text => exact hwrite (hchosen (h _ List.mem_cons_self).clean hempty)
  | cleanPushIfElse condition a b =>
    have hb := h b (List.mem_cons_of_mem _ List.mem_cons_self)
    exact hwrite (hchosen (h a List.mem_cons_self) hb).clean
  | beginDocument => exact hwrite Construct.balanced_beginDocument
  | endDocument => exact hwrite Construct.balanced_endDocument
  | table columns rows =>
    have hrows : ∀ row ∈ rows, ∀ cell ∈ row, Tex.Balanced cell := fun row hrow cell hcell =>
      h cell (List.mem_append_right _ (List.mem_flatten.mpr ⟨row, hrow, hcell⟩))
    intro fragment hfragment
    exact Construct.balanced_table (fun c hc => h c (List.mem_append_left _ hc)) hrows hfragment
  | list items => exact fun fragment hfragment => Construct.balanced_list h hfragment
  | heading title => exact hwrite (Construct.balanced_heading (h _ List.mem_cons_self))
  | subheading title => exact hwrite (Construct.balanced_subheading (h _ List.mem_cons_self))
  | definition term body =>
    have hbody := h body (List.mem_cons_of_mem _ List.mem_cons_self)
    exact hwrite (Construct.balanced_definition (h term List.mem_cons_self) hbody)
  | lineBreak => exact hwrite Construct.balanced_lineBreak
  | pageBreak => exact hwrite Construct.balanced_pageBreak
  | plain text => exact hwrite (Construct.balanced_plain (h _ List.mem_cons_self))
  | indented text => exact hwrite (Construct.balanced_indented (h _ List.mem_cons_self))
  | bold text => exact hwrite (Construct.balanced_bold (h _ List.mem_cons_self))
  | underlined text => exact hwrite (Construct.balanced_underlined (h _ List.mem_cons_self))
  | paragraph label text =>
    have htext := h text (List.mem_cons_of_mem _ List.mem_cons_self)
    exact hwrite (Construct.balanced_paragraph (h label List.mem_cons_self) htext)
  | numberedParagraph label text =>
    have htext := h text (List.mem_cons_of_mem _ List.mem_cons_self)
    exact ⟨hparagraphs, fun step number hstep hnumber =>
      Construct.balanced_numberedParagraph hstep hnumber (h label List.mem_cons_self) htext⟩
  | numberedHeading title =>
    exact ⟨hheadings, fun step number hstep hnumber =>
      Construct.balanced_numberedHeading hstep hnumber (h title List.mem_cons_self)⟩
  | floatingHeading side text =>
    exact hwrite (Construct.balanced_floatingHeading side (h _ List.mem_cons_self))
  | addColour name value model =>
    refine hregister fun entry hmake => Registration.balanced_colour hmake fun hmodel => ?_
    exact h value (by rw [texts, if_neg hmodel]; exact List.mem_cons_self)
  | addStyle name opening closing =>
    exact hregister fun entry hmake =>
      Registration.balanced_style hmake (h _ List.mem_cons_self)
  | addCommand name arity body =>
    exact hregister fun entry hmake =>
      Registration.balanced_command hmake (h _ List.mem_cons_self)
  | addCounter name =>
    exact hregister fun _ hcheck =>
      Registration.balanced_counter (Registration.isWord_of_check hcheck).braceless
  | init options =>
    intro o ho
    obtain rfl := Option.some.inj ho
    exact h
  | reset => exact fun o ho => absurd ho (Option.not_mem_none o)
  | _ => trivial

namespace Document

variable {d : Document}

theorem balanced_step {cs cs' : Counters} {counter : String} {fragment : Fragment}
    (hname : Tex.Braceless counter) (h : cs.step counter = .ok (fragment, cs')) :
    Tex.Balanced fragment := by
  rw [Counters.step] at h
  split at h
  · obtain ⟨rfl, -⟩ := Prod.mk.inj (Except.ok.inj h)
    exact Tex.balanced_command (by decide) (List.forall_mem_singleton.mpr hname.balanced)
  · cases h

/-- A change of values leaves the names of the counters as they are. -/
theorem Balanced.step_counter (h : d.Balanced) {counter : String} {fragment : Fragment}
    {counters : Counters} (hstep : d.counters.step counter = .ok (fragment, counters)) :
    Balanced { d with counters } := by
  refine ⟨h.options, h.fragments, fun kind name hname => h.names kind name ?_⟩
  cases kind with
  | counter =>
    have hcontains : counters.contains name = true := hname
    rw [Counters.contains_iff, Counters.names_step hstep, ← Counters.contains_iff] at hcontains
    exact hcontains
  | _ => exact hname

theorem Balanced.write (h : d.Balanced) {fragment : Fragment} (hfragment : Tex.Balanced fragment) :
    Balanced { d with buffer := d.buffer.append .body fragment } := by
  refine ⟨h.options, fun p f hf => ?_, h.names⟩
  rcases Buffer.mem_append hf with hf | rfl
  · exact h.fragments p f hf
  · exact hfragment

theorem Balanced.removeLast (h : d.Balanced) :
    Balanced { d with buffer := (d.buffer.removeLast .body).2 } := by
  refine ⟨h.options, fun p f hf => ?_, h.names⟩
  cases p with
  | body => exact h.fragments .body f (List.dropLast_subset _ hf)
  | system => exact h.fragments .system f hf
  | definitions => exact h.fragments .definitions f hf

/-- **One call.** What it writes is balanced, so the document stays balanced, also when it is
started over. -/
theorem Balanced.on (h : d.Balanced) {effect : Effect} (heffect : effect.Balanced) :
    (effect.on d).2.Balanced := by
  cases effect with
  | write construct =>
    cases construct with
    | ok fragment => exact h.write (heffect fragment rfl)
    | error e => exact h
  | remove wanted =>
    cases wanted with
    | true => exact h.removeLast
    | false => exact h
  | advance counter =>
    rw [Effect.on]
    cases hstep : d.counters.step counter with
    | ok s => exact h.step_counter hstep
    | error e => exact h
  | number counter construct =>
    rw [Effect.on]
    cases hstep : d.counters.step counter with
    | ok s =>
      obtain ⟨hname, hconstruct⟩ := heffect
      -- The construct is written around two texts of the library, and both have only the name.
      have hnumber : Tex.Balanced (Tex.control ("the" ++ counter)) := by
        have hthe : Tex.Braceless "the" := by decide
        exact Tex.balanced_control (hthe.append hname)
      exact (h.step_counter hstep).write (hconstruct _ _ (balanced_step hname hstep) hnumber)
    | error e => exact h
  | register made =>
    cases made with
    | ok r => exact h.register (heffect r rfl)
    | error e => exact h
  | read answer => exact h
  | start options =>
    have htexts : ∀ text ∈ (options.getD d.options).texts, Tex.Balanced text := by
      cases options with
      | none => exact h.options
      | some o => exact heffect o rfl
    rw [Effect.on]
    cases hadmitted : admitted (options.getD d.options) with
    | ok entries => exact balanced_opened hadmitted htexts
    | error e => exact h
  | snapshot => exact ⟨h.options, h.fragments, h.names⟩
  | settle success => exact ⟨h.options, h.fragments, h.names⟩

/-- **Any calls**, by induction on the list. -/
theorem Balanced.runAll (h : d.Balanced) {operations : List Operation}
    (hcalls : ∀ op ∈ operations, ∀ text ∈ op.texts, Tex.Balanced text) :
    (Operation.runAll operations d).Balanced := by
  induction operations generalizing d with
  | nil => exact h
  | cons op operations ih =>
    obtain ⟨hop, hrest⟩ := List.forall_mem_cons.mp hcalls
    have hstep := h.on (Operation.balanced_effect hop)
    rw [← Operation.run_on] at hstep
    exact ih hstep hrest

end Document

/-! ## What look-ups answer -/

/-- A fragment is answered by a step of a counter or by a look-up, and by nothing else. -/
theorem Effect.fragment_answered {effect : Effect} {d : Document} {fragment : Fragment}
    (h : (effect.on d).1 = .ok (.fragment fragment)) :
    (∃ counter counters, effect = advance counter ∧
      d.counters.step counter = .ok (fragment, counters)) ∨
    ∃ answer, effect = read answer ∧ answer d.registries = .ok fragment := by
  -- What any other effect answers is no fragment, or an error.
  cases effect with
  | write construct => cases construct <;> cases h
  | remove wanted => cases wanted <;> cases h
  | advance counter =>
    rw [on] at h
    cases hstep : d.counters.step counter with
    | ok s =>
      rw [hstep] at h
      obtain rfl := Answer.fragment.inj (Except.ok.inj h)
      exact .inl ⟨counter, s.2, rfl, hstep⟩
    | error e =>
      rw [hstep] at h
      cases h
  | number counter construct =>
    rw [on] at h
    cases hstep : d.counters.step counter <;> rw [hstep] at h <;> cases h
  | register made => cases made <;> cases h
  | read answer =>
    rw [on] at h
    cases hanswer : answer d.registries with
    | ok f =>
      rw [hanswer] at h
      obtain rfl := Answer.fragment.inj (Except.ok.inj h)
      exact .inr ⟨answer, rfl, hanswer⟩
    | error e =>
      rw [hanswer] at h
      cases h
  | start options =>
    rw [on] at h
    cases hadmitted : Document.admitted (options.getD d.options) <;> rw [hadmitted] at h <;> cases h
  | snapshot => cases h
  | settle success => cases h

theorem Counters.contains_of_step {cs cs' : Counters} {counter : String} {fragment : Fragment}
    (h : cs.step counter = .ok (fragment, cs')) : cs.contains counter = true := by
  by_contra hmissing
  rw [step, if_neg hmissing] at h
  cases h

namespace Styler

variable {s : Styler}

/-- A preset on a history of balanced texts answers what is balanced. -/
theorem balanced_applyPreset (h : s.Complete) {preset : RevisionPreset} {history : List String}
    (hhistory : ∀ text ∈ history, Tex.Balanced text) {n : Nat} {m : Option Nat}
    {fragment : Fragment} (hanswer : s.applyPreset preset history n m = .ok fragment) :
    Tex.Balanced fragment := by
  have hok : (s.applyPreset preset history n m).isOk = true := by rw [hanswer]; rfl
  obtain ⟨hn, hm⟩ := (applyPreset_isOk_iff h).mp hok
  cases hpaired : preset.isPaired with
  | false =>
    rw [applyPreset_unpaired h hpaired hn] at hanswer
    obtain rfl := Except.ok.inj hanswer
    exact preset.flags.balanced_mark (hhistory _ (List.getElem_mem hn))
  | true =>
    rw [applyPreset_paired h hpaired hn (hm hpaired)] at hanswer
    obtain rfl := Except.ok.inj hanswer
    have hprior := hhistory _ (List.getElem_mem (hm hpaired))
    have hcurrent := hhistory _ (List.getElem_mem hn)
    exact (StyleFlags.balanced_mark _ hprior).append (StyleFlags.balanced_mark _ hcurrent)

end Styler

namespace Document

variable {edition : Edition} {d : Document}

/-- An entry that is found has a name that is registered. -/
theorem braceless_of_get {ε : Type} [Entry ε] {registry : Registry ε} {name : String} {entry : ε}
    (h : ∀ name, registry.contains name = true → Tex.Braceless name)
    (hget : registry.get name = .ok entry) : Tex.Braceless (Entry.name entry) := by
  have hfind := get_eq_ok_iff.mp hget
  exact h _ (contains_iff_mem.mpr ⟨entry, List.mem_of_find?_eq_some hfind, rfl⟩)

/-- A look-up in a registry answers what is written of an entry that it finds. -/
theorem exists_entry {ε : Type} [Entry ε] {registry : Registry ε} {name : String}
    {write : ε → Fragment} {fragment : Fragment}
    (h : ((registry.get name).mapError DocumentError.ofRegistry).map write = .ok fragment) :
    ∃ entry, registry.get name = .ok entry ∧ write entry = fragment := by
  cases hget : registry.get name with
  | ok entry =>
    rw [hget] at h
    exact ⟨entry, rfl, Except.ok.inj h⟩
  | error e =>
    rw [hget] at h
    cases h

/-- The answer to a look-up with balanced texts is balanced. -/
theorem Balanced.answer (h : d.Balanced) (htracks : Tracks edition d) {op : Operation}
    (htexts : ∀ text ∈ op.lookupTexts, Tex.Balanced text) {fragment : Fragment}
    (hanswer : (op.run.on d).1 = .ok (.fragment fragment)) : Tex.Balanced fragment := by
  have hcomplete := complete_styler htracks
  rw [Operation.run_on] at hanswer
  rcases Effect.fragment_answered hanswer with
    ⟨counter, counters, -, hstep⟩ | ⟨answer, heffect, hread⟩
  · -- A step that does not fail is one of a counter that the document knows.
    exact balanced_step (h.names .counter counter (Counters.contains_of_step hstep)) hstep
  · -- What is found is written with its name, and the name is known to the document.
    cases op with
    | colour name =>
      obtain rfl := Effect.read.inj heffect
      obtain ⟨entry, hget, rfl⟩ := exists_entry hread
      exact ColourEntry.balanced_switch (braceless_of_get (h.names .colour) hget)
    | style name text =>
      obtain rfl := Effect.read.inj heffect
      obtain ⟨entry, hget, rfl⟩ := exists_entry hread
      exact StyleEntry.balanced_apply (braceless_of_get (h.names .style) hget)
        (htexts text List.mem_cons_self)
    | call name arguments =>
      obtain rfl := Effect.read.inj heffect
      have hcall : ((d.commands.get name).bind fun entry => entry.call arguments).mapError
          DocumentError.ofRegistry = .ok fragment := hread
      cases hget : d.commands.get name with
      | error e =>
        rw [hget] at hcall
        cases hcall
      | ok entry =>
        have hname : Tex.Braceless entry.name := braceless_of_get (h.names .command) hget
        cases hresult : entry.call arguments with
        | error e =>
          rw [hget, Except.bind, hresult] at hcall
          cases hcall
        | ok f =>
          rw [hget, Except.bind, hresult] at hcall
          obtain rfl := Except.ok.inj hcall
          exact CommandEntry.balanced_call hname htexts hresult
    | styleText text flags =>
      obtain rfl := Effect.read.inj heffect
      have hspan : d.styler.style text flags = .ok fragment := hread
      rw [Styler.style_eq hcomplete] at hspan
      obtain rfl := Except.ok.inj hspan
      exact flags.balanced_mark (htexts text List.mem_cons_self)
    | revise preset history n m =>
      obtain rfl := Effect.read.inj heffect
      exact Styler.balanced_applyPreset hcomplete htexts hread
    | _ => cases heffect

/-- **Braces stay balanced.** A new document whose options have balanced texts only, and any
calls that write balanced texts only: after them every fragment of the document is balanced,
in each partition, and so is the source text. The fragment that a look-up or a step of a
counter then answers is balanced too, if the texts that it is given are. -/
theorem braces_stay_balanced {o : DocumentOptions} {d₀ : Document} (h : Document.new o = .ok d₀)
    (ho : ∀ text ∈ o.texts, Tex.Balanced text) (operations : List Operation)
    (hcalls : ∀ op ∈ operations, ∀ text ∈ op.texts, Tex.Balanced text) :
    let d := Operation.runAll operations d₀
    (∀ p, ∀ fragment ∈ d.buffer.fragments p, Tex.Balanced fragment) ∧
    Tex.Balanced d.source ∧
    ∀ (op : Operation) (fragment : Fragment), (∀ text ∈ op.lookupTexts, Tex.Balanced text) →
      (op.run.on d).1 = .ok (.fragment fragment) → Tex.Balanced fragment := by
  intro d
  have hbalanced : d.Balanced := by
    obtain ⟨entries, hadmitted, rfl⟩ := new_ok h
    exact (balanced_opened hadmitted ho).runAll hcalls
  refine ⟨hbalanced.fragments, ?_, ?_⟩
  · -- The source text is the fragments of the three partitions with ends of lines between them.
    refine Tex.balanced_intercalate (by decide) fun fragment hfragment => ?_
    rcases List.mem_append.mp hfragment with hfragment | hbody
    · rcases List.mem_append.mp hfragment with hsystem | hdefinitions
      · exact hbalanced.fragments .system fragment hsystem
      · exact hbalanced.fragments .definitions fragment hdefinitions
    · exact hbalanced.fragments .body fragment hbody
  · intro op fragment htexts hanswer
    exact hbalanced.answer ((tracks_new h).runAll operations) htexts hanswer

/-- A style with unbalanced ends, a colour, a table and a refused start; then a marked span
and a use of the style. -/
theorem unbalanced_ends_stay_balanced :
    let o : DocumentOptions := { classOptions := ["a4paper"], body := ["\\title\x7bA\x7d"] }
    let operations : List Operation :=
      [.addStyle "loud" "\\textsc\x7b\\Large " "\x7d", .addColour "ink" " 10,20,30 " .rgb,
        .init { watermark := some { text := "\x7b" } }, .cleanPush "a^\x7bb\x7d",
        .table ["l", "p\x7b2cm\x7d"] [["a", "b"]], .style "loud" "\x7b", .numberedHeading "c"]
    let d := Operation.runAll operations (opened o [])
    Tex.Balanced d.source ∧ Tex.Balanced "\\styleloud\x7bx\x7d" := by
  intro o operations d
  have hnew : Document.new o = .ok (opened o []) := by
    rw [new_eq]
    rfl
  obtain ⟨-, hsource, hanswer⟩ :=
    braces_stay_balanced hnew (by decide) operations (by decide)
  exact ⟨hsource, hanswer (.style "loud" "x") _ (by decide) (by decide +kernel)⟩

end Document

end Galley
