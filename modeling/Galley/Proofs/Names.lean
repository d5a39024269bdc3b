/-
`Proofs/Names.lean` -- which names a document knows, told by its history.

A document knows a name of a kind when its registry has an entry of that name, or when
the counter is declared. Which names these are can be read off the calls and what they
answered, without looking at a registry at all. There are the built-in names, which every
document starts with, the colours of the options that it was last started with, and the
names that a call has registered since then with success. Nothing takes a name away but a
start that succeeds, and a call that fails adds none.

What is read off is the calls since the last start that succeeded. They are the end of
the history, so the inductions here are from the right: one more call begins anew or is
added, and everything before it is as it was.
-/
import Galley.Proofs.ControlWords
import Galley.Proofs.FreshStart
import Galley.Proofs.Partitions
import Mathlib.Data.List.DropRight

set_option autoImplicit false

namespace Galley

open Registry Document

/-! ## The calls since the last start -/

/-- A call and what it answered. -/
abbrev Call := Operation × Except DocumentError Answer

namespace Call

/-- The call started the document over. -/
def begins (call : Call) : Bool := call.1.startsOver && call.2.isOk

/-- What the call registered, if it did not fail. -/
def registered? (call : Call) : Option Registration :=
  if call.2.isOk then call.1.registration? else none

end Call

namespace Effect

variable {effect : Effect} {d : Document}

/-- Starting over with success leaves what some options open. -/
theorem exists_opened (h : (effect.startsOver && (effect.on d).1.isOk) = true) :
    ∃ o entries, (effect.on d).2 = opened o entries := by
  cases effect with
  | start options =>
    rw [on] at h ⊢
    cases ho : admitted (options.getD d.options) with
    | ok entries => exact ⟨_, entries, rfl⟩
    | error e =>
      rw [ho] at h
      cases h
  | _ => cases h

/-- Without success it leaves the document as it is. -/
theorem start_refused {options : Option DocumentOptions}
    (h : ((start options).on d).1.isOk = false) : ((start options).on d).2 = d := by
  rw [on] at h ⊢
  cases ho : admitted (options.getD d.options) with
  | ok entries =>
    rw [ho] at h
    cases h
  | error e => rfl

end Effect

/-- The calls of a history since the last start that succeeded. -/
def sinceStart (history : List Call) : List Call :=
  history.rtakeWhile fun call => !Call.begins call

theorem sinceStart_concat (history : List Call) (call : Call) :
    sinceStart (history ++ [call])
      = if Call.begins call then [] else sinceStart history ++ [call] := by
  cases h : Call.begins call with
  | true => exact List.rtakeWhile_concat_neg _ _ _ (by simp [h])
  | false => exact List.rtakeWhile_concat_pos _ _ _ (by simp [h])

namespace Operation

theorem runAll_concat (operations : List Operation) (op : Operation) (d : Document) :
    runAll (operations ++ [op]) d = (op.run.on (runAll operations d)).2 :=
  List.foldl_append

theorem transcript_concat (operations : List Operation) (op : Operation) (d : Document) :
    transcript (operations ++ [op]) d
      = transcript operations d ++ [(op, (op.run.on (runAll operations d)).1)] := by
  induction operations generalizing d with
  | nil => rfl
  | cons first operations ih =>
    rw [List.cons_append, transcript, ih]
    rfl

/-- What is answered in a history is what the call answers on some document. -/
theorem exists_of_mem_transcript {operations : List Operation} {d : Document} {call : Call}
    (h : call ∈ transcript operations d) : ∃ d', call.2 = (call.1.run.on d').1 := by
  induction operations generalizing d with
  | nil => exact absurd h List.not_mem_nil
  | cons op operations ih =>
    rcases List.mem_cons.mp h with rfl | h
    · exact ⟨d, rfl⟩
    · exact ih h

end Operation

/-- **Read off the calls.** What can be seen of a document follows from the calls since the
last start if this is so for a document that was just started, and if one more call that
starts nothing keeps it so. The induction is on the calls from the right: the last one starts
over, and there is nothing to read, or it is read after those before it. -/
theorem Document.eq_sinceStart {α : Type} (view : Document → α) (read : List Call → α)
    (hopened : ∀ o entries, view (opened o entries) = read [])
    (hstep : ∀ (op : Operation) {edition : Edition} {d : Document} {calls : List Call},
      Tracks edition d → Call.begins (op, (op.run.on d).1) = false → view d = read calls →
      view (op.run.on d).2 = read (calls ++ [(op, (op.run.on d).1)]))
    {o : DocumentOptions} {d₀ : Document} (h : Document.new o = .ok d₀)
    (operations : List Operation) :
    view (Operation.runAll operations d₀)
      = read (sinceStart (Operation.transcript operations d₀)) := by
  induction operations using List.reverseRecOn with
  | nil =>
    obtain ⟨entries, -, rfl⟩ := new_ok h
    exact hopened o entries
  | append_singleton operations op ih =>
    have htracks := (tracks_new h).runAll operations
    rw [Operation.runAll_concat, Operation.transcript_concat, sinceStart_concat]
    by_cases hbegin : Call.begins (op, (op.run.on (Operation.runAll operations d₀)).1) = true
    · rw [if_pos hbegin]
      rw [Call.begins, Operation.startsOver, Operation.run_on] at hbegin
      obtain ⟨o', entries, hstart⟩ := Effect.exists_opened hbegin
      rw [Operation.run_on, hstart, hopened]
    · rw [if_neg hbegin]
      exact hstep op htracks (Bool.of_not_eq_true hbegin) ih

/-- One more call clears what is entered, or adds what it registered. -/
theorem Edition.entered_extend (edition : Edition) (call : Call) :
    (edition.extend call.1.effect call.2).entered
      = if Call.begins call then [] else edition.entered ++ (Call.registered? call).toList := by
  obtain ⟨op, outcome⟩ := call
  rw [Call.begins, Call.registered?, Operation.startsOver, Operation.registration?]
  have hkept : edition.entered = edition.entered ++ (none : Option Registration).toList :=
    (List.append_nil _).symm
  cases outcome with
  | ok answer =>
    cases op.effect with
    | register r =>
      cases r with
      | ok r => rfl
      | error e => exact hkept
    | start options => rfl
    | _ => exact hkept
  | error e =>
    cases op.effect with
    | register r => cases r <;> exact hkept
    | start options => exact hkept
    | _ => exact hkept

/-- What is entered is what the calls since the last start have registered. -/
theorem Edition.entered_after (o : DocumentOptions) (history : List Call) :
    (Edition.after { options := o } history).entered
      = (sinceStart history).filterMap Call.registered? := by
  induction history using List.reverseRecOn with
  | nil => rfl
  | append_singleton history call ih =>
    have hlast : Edition.after { options := o } (history ++ [call])
        = (Edition.after { options := o } history).extend call.1.effect call.2 :=
      List.foldl_append
    rw [hlast, entered_extend, sinceStart_concat, ih]
    by_cases h : Call.begins call = true
    · rw [if_pos h, if_pos h]
      rfl
    · rw [if_neg h, if_neg h, List.filterMap_append]
      cases hr : Call.registered? call with
      | none =>
        rw [List.filterMap_cons_none hr]
        rfl
      | some r =>
        rw [List.filterMap_cons_some hr]
        rfl

/-! ## Names in a document -/

/-- The document knows a name of a kind. -/
def Document.Has (d : Document) (kind : Kind) (name : String) : Prop :=
  match kind with
  | .colour => d.colours.contains name = true
  | .style => d.styles.contains name = true
  | .command => d.commands.contains name = true
  | .counter => d.counters.contains name = true

section Tracked

variable {edition : Edition} {log : List Registration} {d : Document}

/-- A registry has an entry of a name when the document holds a registration of its kind
and of that name. -/
theorem contains_iff_holds {ε : Type} [Entry ε] {registry : Registry ε} (wrap : ε → Registration)
    {kind : Kind} (hholds : ∀ e, d.Holds (wrap e) ↔ e ∈ registry.entries)
    (hkind : ∀ r : Registration, r.kind = kind ↔ ∃ e, r = wrap e)
    (hname : ∀ e, (wrap e).name = Entry.name e) (name : String) :
    registry.contains name = true ↔
      ∃ r : Registration, d.Holds r ∧ r.kind = kind ∧ r.name = name := by
  rw [contains_iff_mem]
  constructor
  · rintro ⟨e, he, rfl⟩
    exact ⟨wrap e, (hholds e).mpr he, (hkind _).mpr ⟨e, rfl⟩, hname e⟩
  · rintro ⟨r, hr, hr', rfl⟩
    obtain ⟨e, rfl⟩ := (hkind r).mp hr'
    exact ⟨e, (hholds e).mp hr, (hname e).symm⟩

theorem Document.has_iff_holds (kind : Kind) (name : String) :
    d.Has kind name ↔ ∃ r : Registration, d.Holds r ∧ r.kind = kind ∧ r.name = name := by
  cases kind with
  | colour =>
    refine contains_iff_holds .colour (fun _ => Iff.rfl) (fun r => ?_) (fun _ => rfl) name
    cases r <;> simp [Registration.kind]
  | style =>
    refine contains_iff_holds .style (fun _ => Iff.rfl) (fun r => ?_) (fun _ => rfl) name
    cases r <;> simp [Registration.kind]
  | command =>
    refine contains_iff_holds .command (fun _ => Iff.rfl) (fun r => ?_) (fun _ => rfl) name
    cases r <;> simp [Registration.kind]
  | counter =>
    -- A counter has no entry, only its name.
    refine ⟨fun h => ⟨.counter name, h, rfl, rfl⟩, ?_⟩
    rintro ⟨r, hr, hkind, rfl⟩
    cases r with
    | counter n => exact hr
    | _ => cases hkind

/-- A document knows the names that its log is about. -/
theorem Document.Mirrors.has_iff (h : Mirrors log d) (kind : Kind) (name : String) :
    d.Has kind name ↔ ∃ r ∈ log, r.kind = kind ∧ r.name = name := by
  rw [has_iff_holds]
  constructor
  · rintro ⟨r, hr, hkind, hname⟩
    obtain ⟨before, after, rfl, -⟩ := (h.holds_iff r).mp hr
    exact ⟨r, List.mem_append_right _ List.mem_cons_self, hkind, hname⟩
  · rintro ⟨r, hr, hkind, hname⟩
    obtain ⟨s, hkey, hs⟩ := h.exists_held hr
    exact ⟨s, hs, hkey.1.trans hkind, hkey.2.trans hname⟩

theorem Tracks.has_iff (h : Tracks edition d) (kind : Kind) (name : String) :
    d.Has kind name ↔ ∃ r ∈ edition.registrations, r.kind = kind ∧ r.name = name := by
  rw [h.mirrors.has_iff, Edition.log]
  simp only [Registration.mem_effective]

/-- Built-in names are known in every edition. -/
theorem Tracks.has_builtIn (h : Tracks edition d) {r : Registration} (hr : r ∈ builtIns) :
    d.Has r.kind r.name :=
  (h.has_iff r.kind r.name).mpr
    ⟨r, List.mem_append_left _ (List.mem_append_left _ hr), rfl, rfl⟩

end Tracked

/-! ## Names in a history -/

/-- The kind and the name that a call is to register. -/
def Operation.key? : Operation → Option (Kind × String)
  | addColour name _ _ => some (.colour, name)
  | addStyle name _ _ => some (.style, name)
  | addCommand name _ _ => some (.command, name)
  | addCounter name => some (.counter, name)
  | _ => none

/-- A name of a kind that is known with options and after calls: a built-in one, that of a
colour of the options, or one that a call has registered with success. -/
def Known (options : DocumentOptions) (calls : List Call) (kind : Kind) (name : String) : Prop :=
  (∃ r ∈ builtIns, r.kind = kind ∧ r.name = name) ∨
    (kind = .colour ∧ ∃ c ∈ options.colours, c.name = name) ∨
    ∃ call ∈ calls, call.1.key? = some (kind, name) ∧ call.2.isOk = true

namespace Registration

theorem colour_of_make {name value : String} {model : ColourModel} {entry : ColourEntry}
    (h : ColourEntry.make name value model = .ok entry) :
    ColourEntry.isName name = true ∧ ColourEntry.normalise model value = .ok entry.value ∧
      entry.name = name ∧ entry.model = model := by
  rw [ColourEntry.make] at h
  by_cases hname : ColourEntry.isName name = true
  · rw [if_pos hname] at h
    cases hvalue : ColourEntry.normalise model value with
    | error cause =>
      rw [hvalue] at h
      cases h
    | ok normal =>
      rw [hvalue] at h
      obtain rfl := Except.ok.inj h
      exact ⟨hname, rfl, rfl, rfl⟩
  · rw [if_neg hname] at h
    cases h

theorem effect_of_registration {op : Operation} {r : Registration}
    (h : op.registration? = some r) : op.effect = .register (.ok r) := by
  rw [Operation.registration?] at h
  cases heffect : op.effect with
  | register made =>
    rw [heffect] at h
    cases made with
    | ok s => exact congrArg _ (congrArg _ (Option.some.inj h))
    | error e => cases h
  | _ =>
    rw [heffect] at h
    cases h

/-- What a call registers has the kind and the name that it is to register. -/
theorem key_of_registration {op : Operation} {r : Registration}
    (h : op.registration? = some r) : op.key? = some (r.kind, r.name) := by
  have heffect := effect_of_registration h
  cases op with
  | addColour name value model =>
    obtain ⟨entry, hmake, rfl⟩ := made_of_register heffect
    obtain ⟨-, -, hname, -⟩ := colour_of_make hmake
    rw [Operation.key?, Registration.kind, Registration.name, hname]
  | addStyle name opening closing =>
    obtain ⟨entry, hmake, rfl⟩ := made_of_register heffect
    obtain ⟨-, rfl⟩ := style_of_make hmake
    rfl
  | addCommand name arity body =>
    obtain ⟨entry, hmake, rfl⟩ := made_of_register heffect
    obtain ⟨-, rfl⟩ := command_of_make hmake
    rfl
  | addCounter name =>
    obtain ⟨-, -, rfl⟩ := made_of_register heffect
    rfl
  | _ => cases heffect

/-- A call that is to register and does not fail registers something. -/
theorem exists_of_submit {made : Except Error Registration} {d : Document}
    (h : ((Effect.register made).on d).1.isOk = true) :
    ∃ r, (Effect.register made).registration? = some r := by
  cases made with
  | ok r => exact ⟨r, rfl⟩
  | error e => cases h

theorem exists_of_key {op : Operation} {kind : Kind} {name : String} {d : Document}
    (hkey : op.key? = some (kind, name)) (hok : (op.run.on d).1.isOk = true) :
    ∃ r, op.registration? = some r ∧ r.kind = kind ∧ r.name = name := by
  obtain ⟨r, hr⟩ : ∃ r, op.registration? = some r := by
    rw [Operation.run_on] at hok
    cases op with
    | addColour name value model => exact exists_of_submit hok
    | addStyle name opening closing => exact exists_of_submit hok
    | addCommand name arity body => exact exists_of_submit hok
    | addCounter name => exact exists_of_submit hok
    | _ => cases hkey
  have hpair : (kind, name) = (r.kind, r.name) :=
    Option.some.inj (hkey.symm.trans (key_of_registration hr))
  exact ⟨r, hr, (congrArg Prod.fst hpair).symm, (congrArg Prod.snd hpair).symm⟩

end Registration

/-! ## The two agree -/

/-- In admitted options every colour is one, and its entry has its name. -/
theorem Document.mem_colourEntries {o : DocumentOptions} {entries : List ColourEntry}
    (h : admitted o = .ok entries) (name : String) :
    (∃ entry ∈ colourEntries o, entry.name = name) ↔ ∃ c ∈ o.colours, c.name = name := by
  constructor
  · rintro ⟨entry, hentry, hname⟩
    obtain ⟨c, hc, hmade⟩ := List.mem_filterMap.mp hentry
    cases hmake : ColourEntry.make c.name c.value c.model with
    | error cause =>
      rw [hmake] at hmade
      cases hmade
    | ok made =>
      rw [hmake] at hmade
      obtain rfl : made = entry := Option.some.inj hmade
      obtain ⟨-, -, hmadeName, -⟩ := Registration.colour_of_make hmake
      exact ⟨c, hc, hmadeName.symm.trans hname⟩
  · rintro ⟨c, hc, hname⟩
    cases hmake : ColourEntry.make c.name c.value c.model with
    | ok made =>
      obtain ⟨-, -, hmadeName, -⟩ := Registration.colour_of_make hmake
      exact ⟨made, List.mem_filterMap.mpr ⟨c, hc, by rw [hmake]; rfl⟩, hmadeName.trans hname⟩
    | error cause =>
      -- A colour that is none would be a fault, and the options have none.
      obtain ⟨e, he⟩ := (exists_firstFault_iff o).mpr (.inr ⟨c, hc, cause, hmake⟩)
      rw [← admitted_error_iff, h] at he
      cases he

/-- **Names are known by the history.** After any calls on a new document, it knows a name
of a kind when the name is built in, belongs to a colour of the options of the last start,
or was registered with success by a call since then. -/
theorem Document.has_iff_known {o : DocumentOptions} {d₀ : Document} (h : Document.new o = .ok d₀)
    (operations : List Operation) (kind : Kind) (name : String) :
    let history := Operation.transcript operations d₀
    (Operation.runAll operations d₀).Has kind name
      ↔ Known (Edition.after { options := o } history).options (sinceStart history) kind name := by
  intro history
  have htracks := (tracks_new h).runAll operations
  obtain ⟨entries, hentries, -⟩ := new_ok h
  obtain ⟨last, hlast⟩ : Edition.Admitted (Edition.after { options := o } history) :=
    Edition.Admitted.runAll ⟨entries, hentries⟩ (tracks_new h) operations
  rw [htracks.has_iff, Known, Edition.registrations]
  simp only [List.mem_append, or_and_right, exists_or, or_assoc]
  -- The built-in names are the same on both sides; colours of options and calls are left.
  refine or_congr_right (or_congr ?_ ?_)
  · rw [← mem_colourEntries hlast name]
    constructor
    · rintro ⟨r, hr, rfl, hname⟩
      obtain ⟨entry, hentry, rfl⟩ := List.mem_map.mp hr
      exact ⟨rfl, entry, hentry, hname⟩
    · rintro ⟨rfl, entry, hentry, hname⟩
      exact ⟨.colour entry, List.mem_map_of_mem hentry, rfl, hname⟩
  · rw [Edition.entered_after]
    constructor
    · rintro ⟨r, hr, rfl, rfl⟩
      obtain ⟨call, hcall, hregistered⟩ := List.mem_filterMap.mp hr
      rw [Call.registered?] at hregistered
      split at hregistered
      · next hok => exact ⟨call, hcall, Registration.key_of_registration hregistered, hok⟩
      · cases hregistered
    · rintro ⟨call, hcall, hkey, hok⟩
      have hmem : call ∈ history := (List.rtakeWhile_suffix _ _).mem hcall
      obtain ⟨d', hanswer⟩ := Operation.exists_of_mem_transcript hmem
      obtain ⟨r, hr, hkind, hname⟩ := Registration.exists_of_key hkey (hanswer ▸ hok)
      exact ⟨r, List.mem_filterMap.mpr ⟨call, hcall, by rw [Call.registered?, if_pos hok, hr]⟩,
        hkind, hname⟩

end Galley
