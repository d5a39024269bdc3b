/-
`Proofs/ControlWords.lean` -- styles and commands share the control words.

A style of the name `em` is the control word `\styleem` in the source, and a command of
the name `em` is `\em`. The two have registries of their own, but the typesetter has one
table of control words, and there the last definition counts. A command of the name
`styleem` therefore takes the word of the style, which neither registry notices. What
stands here is which registration has the last word, and that this is the only way in
which a registered style gets out of force.
-/
import Galley.Proofs.History

set_option autoImplicit false

namespace Galley

open Registry

/-! ## Control words -/

namespace Tex

/-- A control word of letters. -/
def IsWord (word : String) : Prop := ∀ c ∈ word.toList, c.isAlpha = true

instance (word : String) : Decidable (IsWord word) :=
  decidable_of_iff (word.toList.all Char.isAlpha = true) List.all_eq_true

/-- What the definition of a control word begins with. -/
def opening (word : String) : List Char := (control "def" ++ control word).toList

/-- Whether a fragment begins with the definition of a control word, and the word ends
there: what follows is no letter. -/
def defines (word : String) (fragment : Fragment) : Bool :=
  match fragment.toList.dropPrefix? (opening word) with
  | some (c :: _) => !c.isAlpha
  | _ => false

theorem defines_iff {word : String} {fragment : Fragment} :
    defines word fragment = true ↔
      ∃ c rest, fragment.toList = opening word ++ c :: rest ∧ c.isAlpha = false := by
  constructor
  · intro h
    rw [defines] at h
    split at h
    · next c rest hdrop =>
      obtain ⟨start, hfragment, hstart⟩ := List.dropPrefix?_eq_some_iff.mp hdrop
      obtain rfl := eq_of_beq hstart
      exact ⟨c, rest, hfragment, by simpa using h⟩
    · cases h
  · rintro ⟨c, rest, hfragment, hc⟩
    have hdrop : fragment.toList.dropPrefix? (opening word) = some (c :: rest) :=
      List.dropPrefix?_eq_some_iff.mpr ⟨opening word, hfragment, beq_self_eq_true _⟩
    rw [defines, hdrop]
    simpa using hc

/-- A word is read up to the first character that is no letter. -/
theorem takeWhile_word {word : String} (h : IsWord word) {c : Char} (hc : c.isAlpha = false)
    (rest : List Char) : (word.toList ++ c :: rest).takeWhile Char.isAlpha = word.toList := by
  rw [List.takeWhile_append_of_pos h, List.takeWhile_cons_of_neg (by simp [hc]), List.append_nil]

/-- A fragment begins with the definition of one word at most. -/
theorem word_unique {word word' : String} {fragment : Fragment} (hword : IsWord word)
    (hword' : IsWord word') (h : defines word fragment = true)
    (h' : defines word' fragment = true) : word = word' := by
  obtain ⟨c, rest, hfragment, hc⟩ := defines_iff.mp h
  obtain ⟨c', rest', hfragment', hc'⟩ := defines_iff.mp h'
  have hopening : ∀ w : String, opening w = ['\\', 'd', 'e', 'f', '\\'] ++ w.toList := fun w => by
    simp [opening, control]
  -- The openings begin alike, so one text is left, and each word is what is read of it.
  rw [hfragment, hopening, hopening, List.append_assoc, List.append_assoc,
    List.append_cancel_left_eq] at hfragment'
  have hread := congrArg (List.takeWhile Char.isAlpha) hfragment'
  rw [takeWhile_word hword hc, takeWhile_word hword' hc'] at hread
  exact String.toList_inj.mp hread

/-- A definition has a backslash after its first control word. -/
theorem fifth_of_defines {word : String} {fragment : Fragment}
    (h : defines word fragment = true) : fragment.toList[4]? = some '\\' := by
  obtain ⟨c, rest, hfragment, -⟩ := defines_iff.mp h
  rw [hfragment]
  simp [opening, control]

end Tex

/-! ## The word of a registration -/

namespace Registration

/-- The control word that a registration defines. -/
def controlWord? : Registration → Option String
  | style entry => some ("style" ++ entry.name)
  | command entry => some entry.name
  | _ => none

/-- The control word is one, as the checks of names make sure. -/
def WellNamed (r : Registration) : Prop := ∀ word ∈ r.controlWord?, Tex.IsWord word

theorem wellNamed_of_none {r : Registration} (h : r.controlWord? = none) : r.WellNamed := by
  intro word hword
  rw [h] at hword
  cases hword

theorem defines_style (entry : StyleEntry) :
    Tex.defines ("style" ++ entry.name) (Entry.definition entry) = true :=
  Tex.defines_iff.mpr ⟨'#', '1' :: (Tex.group (entry.opening ++ "#1" ++ entry.closing)).toList,
    by simp [Entry.definition, Tex.opening, StyleEntry.controlSequence, Tex.control], by decide⟩

/-- The word of a command ends at its first parameter, or at its body if it has none. -/
theorem defines_command (entry : CommandEntry) :
    Tex.defines entry.name (Entry.definition entry) = true := by
  obtain ⟨c, rest, hrest, hc⟩ : ∃ c rest,
      (CommandEntry.parameters entry.arity ++ Tex.group entry.body).toList = c :: rest ∧
        c.isAlpha = false := by
    cases entry.arity with
    | zero => exact ⟨'\x7b', _, by simp [CommandEntry.parameters, Tex.group]; rfl, by decide⟩
    | succ n =>
      exact ⟨'#', _, by simp [CommandEntry.parameters, List.range_succ_eq_map]; rfl, by decide⟩
  refine Tex.defines_iff.mpr ⟨c, rest, ?_, hc⟩
  rw [← hrest]
  simp [Entry.definition, Tex.opening]

/-- The fragment of a registration defines its control word and no other one. -/
theorem defines_fragment {r : Registration} (hr : r.WellNamed) {word : String}
    (hword : Tex.IsWord word) :
    Tex.defines word r.fragment = true ↔ r.controlWord? = some word := by
  cases r with
  -- `\newcounter` and `\definecolor` are no definitions of this kind: the fifth character
  -- tells, and not an earlier one, since `\definecolor` begins with `\def`.
  | counter name =>
    refine iff_of_false (fun h => ?_) (Option.some_ne_none word).symm
    have hfifth := Tex.fifth_of_defines h
    simp [fragment, Tex.command, Tex.control] at hfifth
  | colour entry =>
    refine iff_of_false (fun h => ?_) (Option.some_ne_none word).symm
    have hfifth := Tex.fifth_of_defines h
    simp [fragment, Entry.definition, Tex.command, Tex.control] at hfifth
  | style entry =>
    rw [controlWord?, Option.some.injEq]
    constructor
    · exact fun h => Tex.word_unique (hr _ rfl) hword (defines_style entry) h
    · rintro rfl
      exact defines_style entry
  | command entry =>
    rw [controlWord?, Option.some.injEq]
    constructor
    · exact fun h => Tex.word_unique (hr _ rfl) hword (defines_command entry) h
    · rintro rfl
      exact defines_command entry

/-! ## Registrations are well named -/

theorem isWord_of_check {kind : Kind} {name : String} (h : checkControlWord kind name = .ok ()) :
    Tex.IsWord name := by
  rw [checkControlWord] at h
  split at h
  · cases h
  · split at h
    · next hletters => exact List.all_eq_true.mp hletters
    · cases h

theorem style_of_make {name opening closing : String} {entry : StyleEntry}
    (h : StyleEntry.make name opening closing = .ok entry) :
    checkControlWord .style name = .ok () ∧ entry = { name, opening, closing } := by
  rw [StyleEntry.make] at h
  cases hname : checkControlWord .style name with
  | error e =>
    rw [hname] at h
    cases h
  | ok u =>
    rw [hname] at h
    exact ⟨rfl, (Except.ok.inj h).symm⟩

theorem command_of_make {name body : String} {arity : Nat} {entry : CommandEntry}
    (h : CommandEntry.make name arity body = .ok entry) :
    checkControlWord .command name = .ok () ∧ entry = { name, arity, body } := by
  rw [CommandEntry.make] at h
  cases hname : checkControlWord .command name with
  | error e =>
    rw [hname] at h
    cases h
  | ok u =>
    rw [hname] at h
    by_cases harity : CommandEntry.maxArity < arity
    · rw [if_pos harity] at h
      cases h
    · rw [if_neg harity] at h
      exact ⟨rfl, (Except.ok.inj h).symm⟩

theorem wellNamed_style {name opening closing : String} {entry : StyleEntry}
    (h : StyleEntry.make name opening closing = .ok entry) : (style entry).WellNamed := by
  obtain ⟨hname, rfl⟩ := style_of_make h
  intro word hword
  obtain rfl := Option.some.inj hword
  have hstyle : Tex.IsWord "style" := by decide
  intro c hc
  rw [String.toList_append, List.mem_append] at hc
  exact hc.elim (hstyle c) (isWord_of_check hname c)

theorem wellNamed_command {name body : String} {arity : Nat} {entry : CommandEntry}
    (h : CommandEntry.make name arity body = .ok entry) : (command entry).WellNamed := by
  obtain ⟨hname, rfl⟩ := command_of_make h
  intro word hword
  obtain rfl := Option.some.inj hword
  exact isWord_of_check hname

/-- The built-in styles could have been made by a call. -/
theorem wellNamed_builtIns : ∀ r ∈ Document.builtIns, r.WellNamed := by
  intro r hr
  rw [Document.builtIns, List.mem_append, List.mem_append] at hr
  rcases hr with (hr | hr) | hr
  · obtain ⟨name, -, rfl⟩ := List.mem_map.mp hr
    exact wellNamed_of_none rfl
  · obtain ⟨s, hs, rfl⟩ := List.mem_map.mp hr
    exact wellNamed_style (Document.builtInStyles_made s hs)
  · obtain ⟨c, -, rfl⟩ := List.mem_map.mp hr
    exact wellNamed_of_none rfl

/-- What a call registers was made of its arguments without an error. -/
theorem made_of_register {α : Type} {made : Except Error α} {wrap : α → Registration}
    {r : Registration} (h : Effect.register (made.map wrap) = .register (.ok r)) :
    ∃ entry, made = .ok entry ∧ wrap entry = r := by
  have hmap := Effect.register.inj h
  cases made with
  | error e => cases hmap
  | ok entry => exact ⟨entry, rfl, Except.ok.inj hmap⟩

/-- What a call registers is well named. -/
theorem wellNamed_effect {op : Operation} {r : Registration}
    (h : op.effect = .register (.ok r)) : r.WellNamed := by
  cases op with
  | addColour name value model =>
    obtain ⟨entry, -, rfl⟩ := made_of_register h
    exact wellNamed_of_none rfl
  | addStyle name opening closing =>
    obtain ⟨entry, hmake, rfl⟩ := made_of_register h
    exact wellNamed_style hmake
  | addCommand name arity body =>
    obtain ⟨entry, hmake, rfl⟩ := made_of_register h
    exact wellNamed_command hmake
  | addCounter name =>
    obtain ⟨-, -, rfl⟩ := made_of_register h
    exact wellNamed_of_none rfl
  | _ => cases h

end Registration

namespace Edition

/-- **One call** enters what is well named. -/
theorem wellNamed_extend {edition : Edition} (h : ∀ r ∈ edition.entered, r.WellNamed)
    (op : Operation) (outcome : Except DocumentError Answer) :
    ∀ r ∈ (edition.extend op.effect outcome).entered, r.WellNamed := by
  unfold extend
  split
  · exact fun r hr => absurd hr List.not_mem_nil
  · next s heffect =>
    intro r hr
    rcases List.mem_append.mp hr with hr | hr
    · exact h r hr
    · obtain rfl := List.mem_singleton.mp hr
      exact Registration.wellNamed_effect heffect
  · exact h

/-- **A whole history.** By induction on the calls. -/
theorem wellNamed_after {edition : Edition} (h : ∀ r ∈ edition.entered, r.WellNamed)
    (history : List (Operation × Except DocumentError Answer)) :
    ∀ r ∈ (edition.after history).entered, r.WellNamed := by
  induction history generalizing edition with
  | nil => exact h
  | cons call history ih => exact ih (wellNamed_extend h call.1 call.2)

theorem wellNamed_log {edition : Edition} (h : ∀ r ∈ edition.entered, r.WellNamed) :
    ∀ r ∈ edition.log, r.WellNamed := by
  intro r hr
  rw [log, Registration.mem_effective, registrations, List.mem_append, List.mem_append] at hr
  rcases hr with (hr | hr) | hr
  · exact Registration.wellNamed_builtIns r hr
  · obtain ⟨entry, -, rfl⟩ := List.mem_map.mp hr
    exact Registration.wellNamed_of_none rfl
  · exact h r hr

end Edition

/-! ## The last word -/

namespace Registration

/-- The last registration of a log that defines a control word. -/
def lastOf (word : String) (log : List Registration) : Option Registration :=
  log.findRev? fun r => r.controlWord? = some word

/-- The word of a style belongs to a command that says something else. -/
def Overridden (log : List Registration) (entry : StyleEntry) : Prop :=
  ∃ c : CommandEntry, lastOf ("style" ++ entry.name) log = some (command c) ∧
    Entry.definition c ≠ Entry.definition entry

theorem findRev?_concat {α : Type} (p : α → Bool) (l : List α) (a : α) :
    (l ++ [a]).findRev? p = if p a then some a else l.findRev? p := by
  rw [List.findRev?_eq_find?_reverse, List.findRev?_eq_find?_reverse, List.reverse_concat,
    List.find?_cons]
  cases p a <;> rfl

theorem lastOf_concat (word : String) (log : List Registration) (r : Registration) :
    lastOf word (log ++ [r]) = if r.controlWord? = some word then some r else lastOf word log := by
  rw [lastOf, findRev?_concat, lastOf]
  simp only [decide_eq_true_eq]

/-- A style that no later one replaces has the last word, or a command has. -/
theorem lastOf_style {log : List Registration} {entry : StyleEntry}
    (h : (style entry).LastIn log) :
    lastOf ("style" ++ entry.name) log = some (style entry) ∨
      ∃ c : CommandEntry, lastOf ("style" ++ entry.name) log = some (command c) := by
  induction log using List.reverseRecOn with
  | nil => exact absurd h (not_lastIn_nil _)
  | append_singleton log s ih =>
    rw [lastOf_concat]
    rcases lastIn_append_singleton.mp h with rfl | ⟨hkey, hlast⟩
    · exact .inl (if_pos rfl)
    · split
      · next hword =>
        cases s with
        | style e =>
          -- It would be a later style of the same name.
          have hname : e.name = entry.name := by
            simpa [controlWord?, String.append_right_inj] using hword
          exact absurd ⟨rfl, hname⟩ hkey
        | command c => exact .inr ⟨c, rfl⟩
        | counter name => cases hword
        | colour e => cases hword
      · exact ih hlast

/-- The last definition of a word among fragments is that of its last registration. -/
theorem findRev?_fragment {log : List Registration} (hlog : ∀ r ∈ log, r.WellNamed)
    {word : String} (hword : Tex.IsWord word) :
    (log.map fragment).findRev? (Tex.defines word) = (lastOf word log).map fragment := by
  induction log using List.reverseRecOn with
  | nil => rfl
  | append_singleton log r ih =>
    obtain ⟨hlog, hr⟩ := List.forall_mem_append.mp hlog
    have hdefines := defines_fragment (hr r (List.mem_singleton_self r)) hword
    rw [List.map_append, List.map_singleton, findRev?_concat, lastOf_concat, ih hlog]
    by_cases h : r.controlWord? = some word
    · rw [if_pos (hdefines.mpr h), if_pos h, Option.map_some]
    · rw [if_neg (mt hdefines.mp h), if_neg h]

end Registration

namespace Document

open Registration

variable {log : List Registration} {d : Document}

theorem listCommands_defines (word : String) :
    Tex.defines word Preamble.listCommands = false := by
  obtain ⟨rest, hrest⟩ := listCommands_start
  by_contra h
  have hfifth := Tex.fifth_of_defines (Bool.of_not_eq_false h)
  rw [hrest] at hfifth
  simp [Tex.control] at hfifth

/-- The last definition of a word in a document is that of its last registration. -/
theorem Mirrors.findRev?_defines (h : Mirrors log d) (hlog : ∀ r ∈ log, r.WellNamed)
    {word : String} (hword : Tex.IsWord word) :
    d.buffer.definitions.findRev? (Tex.defines word) = (lastOf word log).map fragment := by
  rw [h.definitions, List.findRev?_eq_find?_reverse, List.reverse_cons, List.find?_append,
    ← List.findRev?_eq_find?_reverse, findRev?_fragment hlog hword,
    List.find?_singleton, listCommands_defines]
  simp

/-- A style in a registry is answered by its control word. -/
theorem style_on {entry : StyleEntry} (hsorted : Sorted d.styles) (h : entry ∈ d.styles.entries)
    (text : String) :
    (Document.style entry.name text).on d = (.ok (entry.apply text), d) := by
  have hget : d.styles.get entry.name = .ok entry := get_eq_ok_iff.mpr (find?_of_mem hsorted h)
  rw [Document.style, Edit.on_bind_ok (Edit.on_get d), hget]
  rfl

/-- **When a style is in force.** After any calls on a new document, a registered style is
answered by its control word with the text behind it. The last definition of that word is
that of the style unless the last registration of the word is a command that says
something else; colours, counters, other styles and commands of other words do not
matter. -/
theorem style_in_force_iff {o : DocumentOptions} {d₀ : Document} (h : Document.new o = .ok d₀)
    (operations : List Operation) :
    let d := Operation.runAll operations d₀
    let log := (Edition.after { options := o } (Operation.transcript operations d₀)).log
    ∀ entry ∈ d.styles.entries,
      (∀ text, (Document.style entry.name text).on d
        = (.ok (Tex.control ("style" ++ entry.name) ++ Tex.group text), d)) ∧
      (d.buffer.definitions.findRev? (Tex.defines ("style" ++ entry.name))
          = some (Entry.definition entry)
        ↔ ¬ Overridden log entry) := by
  intro d log entry hentry
  have hd : Mirrors log d := ((tracks_new h).runAll operations).mirrors
  have hlog : ∀ r ∈ log, r.WellNamed :=
    Edition.wellNamed_log (Edition.wellNamed_after (fun r hr => absurd hr List.not_mem_nil) _)
  have hlast : (Registration.style entry).LastIn log := (hd.holds_iff (.style entry)).mp hentry
  have hword : Tex.IsWord ("style" ++ entry.name) := by
    obtain ⟨before, after, hsplit, -⟩ := hlast
    exact hlog (.style entry) (hsplit ▸ List.mem_append_right _ List.mem_cons_self) _ rfl
  refine ⟨fun text => style_on (hd.styles ▸ sorted_ofList _) hentry text, ?_⟩
  rw [hd.findRev?_defines hlog hword]
  -- The style is the last of its name, so only a command can come after it with its word.
  rcases lastOf_style hlast with hown | ⟨c, hcommand⟩
  · refine iff_of_true (by rw [hown]; rfl) ?_
    rintro ⟨c, hc, -⟩
    cases hown.symm.trans hc
  · rw [hcommand, Option.map_some, Option.some.injEq]
    constructor
    · rintro hsame ⟨c', hc', hdiffers⟩
      obtain rfl : c = c' := by simpa using hcommand.symm.trans hc'
      exact hdiffers hsame
    · exact fun hnot => Classical.not_not.mp fun hdiffers => hnot ⟨c, hcommand, hdiffers⟩

/-- A command of the name of a style: the style has a word of its own. -/
theorem bold_stays_in_force :
    let operations : List Operation := [.addCommand "bf" 1 "\\emph\x7b#1\x7d"]
    let bold : StyleEntry := ⟨"bf", "\\textbf\x7b", "\x7d"⟩
    (Operation.runAll operations (opened {} [])).buffer.definitions.findRev?
      (Tex.defines "stylebf") = some (Entry.definition bold) := by
  intro operations bold
  have hbold : bold ∈ (Operation.runAll operations (opened {} [])).styles.entries := by
    decide +kernel
  have hlast : lastOf "stylebf"
      (Edition.after { options := {} } (Operation.transcript operations (opened {} []))).log
      = some (.style bold) := by
    decide +kernel
  refine ((style_in_force_iff new_default operations) bold hbold).2.mpr ?_
  rintro ⟨c, hc, -⟩
  cases hlast.symm.trans hc

/-- A command whose name is `style` and the name of a style: the style is still answered by
its word, and the word means the command. -/
theorem command_takes_word_of_style :
    let d := Operation.runAll [.addCommand "stylebf" 1 "\\emph\x7b#1\x7d"] (opened {} [])
    let bold : StyleEntry := ⟨"bf", "\\textbf\x7b", "\x7d"⟩
    Document.new {} = .ok (opened {} []) ∧ bold ∈ d.styles.entries ∧
      (Document.style "bf" "x").on d = (.ok "\\stylebf\x7bx\x7d", d) ∧
      d.buffer.definitions.findRev? (Tex.defines "stylebf")
        = some "\\def\\stylebf#1\x7b\\emph\x7b#1\x7d\x7d" ∧
      d.buffer.definitions.findRev? (Tex.defines "stylebf") ≠ some (Entry.definition bold) := by
  intro d bold
  exact ⟨new_default, by decide +kernel, by decide +kernel, by decide +kernel, by decide +kernel⟩

end Document

end Galley
