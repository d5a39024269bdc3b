/-
`Proofs/Mirror.lean` -- the definitions and the registries are one log, read twice.

The definitions keep every registration in the order of the calls, and the registries
keep the last one of each name. Both follow from the log of the registrations that took
effect: the definitions are its fragments, one by one, and a registry holds the entries
that no later one of their name replaces. A counter that exists is not declared again,
so it is in the log once.

A document *mirrors* a log when this is so. One registration keeps log and document in
step, and so does any number of them. The rest of the file reads a mirrored document:
what it holds is what comes last in the log, the fragment that stands for it is not
followed by another of its kind and name, and a declared counter has one declaration.
-/
import Galley.Proofs.Registration
import Galley.Proofs.Registry
import Mathlib.Data.List.Nodup

set_option autoImplicit false

namespace Galley

open Registry

namespace Registration

/-! ## Logs -/

/-- A log with one more registration. A counter that is in it stays where it is. -/
def record (log : List Registration) : Registration → List Registration
  | counter name => if counter name ∈ log then log else log ++ [counter name]
  | r => log ++ [r]

/-- The registrations of a list that took effect. -/
def effective (l : List Registration) : List Registration := l.foldl record []

/-- What was recorded is in the log, and nothing else is. -/
theorem mem_record {log : List Registration} {r s : Registration} :
    r ∈ record log s ↔ r ∈ log ∨ r = s := by
  have happend : r ∈ log ++ [s] ↔ r ∈ log ∨ r = s :=
    List.mem_append.trans (or_congr_right List.mem_singleton)
  cases s with
  | counter name =>
    rw [record]
    split
    · next hmem => exact ⟨.inl, fun h => h.elim id fun h => h ▸ hmem⟩
    · exact happend
  | _ => exact happend

theorem mem_effective {l : List Registration} {r : Registration} : r ∈ effective l ↔ r ∈ l := by
  induction l using List.reverseRecOn with
  | nil => exact Iff.rfl
  | append_singleton l s ih =>
    have hstep : effective (l ++ [s]) = record (effective l) s := List.foldl_append
    rw [hstep, mem_record, List.mem_append, List.mem_singleton]
    exact or_congr_left ih

/-- Two registrations of one kind and one name. -/
def SameKey (s r : Registration) : Prop := s.kind = r.kind ∧ s.name = r.name

/-- A registration that no later one of its kind and name follows. -/
def LastIn (r : Registration) (log : List Registration) : Prop :=
  ∃ before after, log = before ++ r :: after ∧ ∀ s ∈ after, ¬ s.SameKey r

theorem not_lastIn_nil (r : Registration) : ¬ r.LastIn [] := by
  rintro ⟨before, after, h, -⟩
  exact List.append_ne_nil_of_right_ne_nil before (List.cons_ne_nil r after) h.symm

/-- One more registration comes last, and takes that from the one of its kind and name. -/
theorem lastIn_append_singleton {r s : Registration} {log : List Registration} :
    r.LastIn (log ++ [s]) ↔ s = r ∨ ¬ s.SameKey r ∧ r.LastIn log := by
  constructor
  · rintro ⟨before, after, h, hafter⟩
    -- What follows `r` is nothing, and `s` is `r`, or it ends with `s`.
    induction after using List.reverseRecOn with
    | nil => exact .inl (List.append_inj_right' h rfl |> List.singleton_inj.mp)
    | append_singleton after t =>
      rw [← List.cons_append, ← List.append_assoc] at h
      obtain ⟨rfl, ht⟩ := List.append_inj' h rfl
      obtain rfl : s = t := List.singleton_inj.mp ht
      refine .inr ⟨hafter s (List.mem_append_right _ (List.mem_singleton_self s)), before, after,
        rfl, fun u hu => hafter u (List.mem_append_left _ hu)⟩
  · rintro (rfl | ⟨hs, before, after, rfl, hafter⟩)
    · exact ⟨log, [], rfl, fun _ h => absurd h List.not_mem_nil⟩
    · refine ⟨before, after ++ [s], by simp, fun u hu => ?_⟩
      rcases List.mem_append.mp hu with hu | hu
      · exact hafter u hu
      · rwa [List.mem_singleton.mp hu]

/-- For every kind and name in a log, one registration comes last. -/
theorem exists_lastIn {log : List Registration} {r : Registration} (h : r ∈ log) :
    ∃ s : Registration, s.SameKey r ∧ s.LastIn log := by
  induction log using List.reverseRecOn with
  | nil => exact absurd h List.not_mem_nil
  | append_singleton log t ih =>
    by_cases ht : t.SameKey r
    · exact ⟨t, ht, lastIn_append_singleton.mpr (.inl rfl)⟩
    · rcases List.mem_append.mp h with h | h
      · obtain ⟨s, hs, hlast⟩ := ih h
        have hts : ¬ t.SameKey s := fun hts => ht ⟨hts.1.trans hs.1, hts.2.trans hs.2⟩
        exact ⟨s, hs, lastIn_append_singleton.mpr (.inr ⟨hts, hlast⟩)⟩
      · obtain rfl := List.mem_singleton.mp h
        exact absurd ⟨rfl, rfl⟩ ht

/-- One more registration is one more insertion if it is of the kind of the registry. -/
theorem ofList_filterMap_append {ε : Type} [Entry ε] (view : Registration → Option ε)
    (log : List Registration) (r : Registration) :
    ofList ((log ++ [r]).filterMap view)
      = (view r).elim (ofList (log.filterMap view)) (ofList (log.filterMap view)).insert := by
  rw [List.filterMap_append]
  cases hr : view r with
  | none => rw [List.filterMap_cons_none hr, List.filterMap_nil, List.append_nil, Option.elim_none]
  | some e =>
    rw [List.filterMap_cons_some hr, List.filterMap_nil, ofList_append_singleton, Option.elim_some]

/-- `view` picks the entries of one kind, and `r` is the registration of an entry. -/
structure IsView {ε : Type} [Entry ε] (view : Registration → Option ε) (r : ε → Registration) :
    Prop where
  some_iff : ∀ s e, view s = some e ↔ s = r e
  sameKey_iff : ∀ s e, s.SameKey (r e) ↔ ∃ e', s = r e' ∧ Entry.name e' = Entry.name e

theorem isView_style : IsView style? style where
  some_iff s e := by cases s <;> simp [style?]
  sameKey_iff s e := by cases s <;> simp [SameKey, kind, name, Entry.name]

theorem isView_colour : IsView colour? colour where
  some_iff s e := by cases s <;> simp [colour?]
  sameKey_iff s e := by cases s <;> simp [SameKey, kind, name, Entry.name]

theorem isView_command : IsView command? command where
  some_iff s e := by cases s <;> simp [command?]
  sameKey_iff s e := by cases s <;> simp [SameKey, kind, name, Entry.name]

section View

variable {ε : Type} [Entry ε] {view : Registration → Option ε} {r : ε → Registration}

theorem IsView.inj (h : IsView view r) {e e' : ε} : r e' = r e ↔ e' = e := by
  rw [← h.some_iff, (h.some_iff (r e') e').mpr rfl, Option.some.injEq]

theorem IsView.sameKey (h : IsView view r) {e e' : ε} :
    (r e').SameKey (r e) ↔ Entry.name e' = Entry.name e := by
  rw [h.sameKey_iff]
  constructor
  · rintro ⟨a, ha, hname⟩
    rwa [h.inj.mp ha]
  · exact fun hname => ⟨e', rfl, hname⟩

/-- The registry of a view holds what comes last in the log. -/
theorem IsView.mem_iff (h : IsView view r) (log : List Registration) (e : ε) :
    e ∈ (ofList (log.filterMap view)).entries ↔ (r e).LastIn log := by
  induction log using List.reverseRecOn with
  | nil => exact iff_of_false List.not_mem_nil (not_lastIn_nil _)
  | append_singleton log s ih =>
    rw [ofList_filterMap_append, lastIn_append_singleton, ← ih]
    cases hs : view s with
    | none =>
      -- Not an entry of this kind, so it is not the one and takes no place from it.
      have hne : ∀ e', s ≠ r e' := fun e' he' => by
        rw [(h.some_iff s e').mpr he'] at hs
        cases hs
      have hother : ¬ s.SameKey (r e) := fun hkey => by
        obtain ⟨e', he', -⟩ := (h.sameKey_iff s e).mp hkey
        exact hne e' he'
      simp [hne, hother]
    | some e' =>
      obtain rfl := (h.some_iff s e').mp hs
      rw [Option.elim_some, mem_insert (sorted_ofList _), h.inj, h.sameKey]

end View

/-! ## Counters in a log -/

theorem counters_cons (name : String) (log : List Registration) :
    (counter name :: log).filterMap counter? = name :: log.filterMap counter? := rfl

theorem mem_counters_iff {log : List Registration} {name : String} :
    name ∈ log.filterMap counter? ↔ counter name ∈ log := by
  rw [List.mem_filterMap]
  constructor
  · rintro ⟨s, hs, hname⟩
    cases s with
    | counter n => exact Option.some.inj hname ▸ hs
    | _ => cases hname
  · exact fun h => ⟨counter name, h, rfl⟩

/-- A counter that is declared once comes last wherever it is. -/
theorem counter_lastIn_iff {log : List Registration} (h : (log.filterMap counter?).Nodup)
    {name : String} : (counter name).LastIn log ↔ counter name ∈ log := by
  constructor
  · rintro ⟨before, after, rfl, -⟩
    exact List.mem_append_right _ List.mem_cons_self
  · intro hmem
    obtain ⟨before, after, rfl⟩ := List.append_of_mem hmem
    refine ⟨before, after, rfl, fun s hs hkey => ?_⟩
    rw [List.filterMap_append, counters_cons] at h
    have hfresh := (List.nodup_cons.mp h.of_append_right).1
    cases s with
    | counter n =>
      obtain rfl : n = name := hkey.2
      exact hfresh (mem_counters_iff.mpr hs)
    | _ => cases hkey.1

/-! ## Fragments -/

/-- The fragments of two counters differ, and those of the other kinds start otherwise. -/
theorem fragment_eq_counter_iff {s : Registration} {name : String} :
    s.fragment = (counter name).fragment ↔ s = counter name := by
  refine ⟨fun h => ?_, congrArg fragment⟩
  -- The second character tells a declaration from the definitions of the other kinds.
  have hsecond : s.fragment.toList[1]? = some 'n' := by
    rw [h]
    simp [fragment, Tex.command, Tex.control]
  cases s with
  | counter n =>
    rw [fragment, fragment, Tex.command, Tex.command, String.append_right_inj] at h
    obtain rfl : n = name := by simpa [Tex.group, String.ext_iff] using h
    rfl
  | style entry => simp [fragment, Entry.definition, Tex.control] at hsecond
  | colour entry => simp [fragment, Entry.definition, Tex.command, Tex.control] at hsecond
  | command entry => simp [fragment, Entry.definition, Tex.control] at hsecond

theorem listCommands_start : ∃ rest, Preamble.listCommands = Tex.control "makeatletter" ++ rest :=
  ⟨_, String.intercalate_cons_cons.trans String.append_assoc⟩

theorem listCommands_ne_counter (name : String) :
    Preamble.listCommands ≠ (counter name).fragment := by
  intro h
  obtain ⟨rest, hrest⟩ := listCommands_start
  have hsecond : (counter name).fragment.toList[1]? = some 'm' := by
    rw [← h, hrest]
    simp [Tex.control]
  simp [fragment, Tex.command, Tex.control] at hsecond

/-- A declaration stands among the fragments as often as its counter is in the log. -/
theorem count_fragment_counter (log : List Registration) (name : String) :
    (log.map fragment).count (counter name).fragment = (log.filterMap counter?).count name := by
  induction log with
  | nil => rfl
  | cons s log ih =>
    rw [List.map_cons, List.count_cons, ih]
    by_cases hs : s = counter name
    · rw [hs, counters_cons, List.count_cons_self, if_pos (beq_self_eq_true _)]
    · have hfragment : (s.fragment == (counter name).fragment) = false :=
        beq_false_of_ne fun h => hs (fragment_eq_counter_iff.mp h)
      rw [hfragment, if_neg Bool.false_ne_true, Nat.add_zero]
      cases s with
      | counter n =>
        have hn : n ≠ name := fun h => hs (congrArg counter h)
        rw [counters_cons, List.count_cons_of_ne hn]
      | _ => rfl

end Registration

/-! ## Documents that mirror a log -/

namespace Document

open Registration

/-- The document says what the log says: its definitions are the fragments of the log,
and its registries and counters are what the log adds up to. -/
structure Mirrors (log : List Registration) (d : Document) : Prop where
  definitions : d.buffer.definitions = Preamble.listCommands :: log.map fragment
  colours : d.colours = ofList (log.filterMap colour?)
  styles : d.styles = ofList (log.filterMap style?)
  commands : d.commands = ofList (log.filterMap command?)
  counters : d.counters.names = log.filterMap counter?
  /-- No counter is declared twice. -/
  nodup : d.counters.names.Nodup

section Register

variable {log : List Registration} {d : Document}

/-- A registration that takes effect is one more line of the log. The registries follow
whatever it is; what it says of the definitions and the counters is left to the caller. -/
theorem Mirrors.append (h : Mirrors log d) {r : Registration}
    (hdefinitions : (d.register r).buffer.definitions = d.buffer.definitions ++ [r.fragment])
    (hcounters : (d.register r).counters.names = d.counters.names ++ [r].filterMap counter?)
    (hnodup : (d.register r).counters.names.Nodup) :
    Mirrors (log ++ [r]) (d.register r) where
  definitions := by
    rw [hdefinitions, h.definitions, List.map_append]
    rfl
  colours := by rw [colours_register, ofList_filterMap_append, h.colours]
  styles := by rw [styles_register, ofList_filterMap_append, h.styles]
  commands := by rw [commands_register, ofList_filterMap_append, h.commands]
  counters := by rw [hcounters, h.counters, List.filterMap_append]
  nodup := hnodup

/-- One registration keeps the log and the document in step. -/
theorem Mirrors.register (h : Mirrors log d) (r : Registration) :
    Mirrors (record log r) (d.register r) := by
  cases r with
  | counter name =>
    have hdeclared : d.counters.contains name ↔ counter name ∈ log := by
      rw [Counters.contains_iff, h.counters, mem_counters_iff]
    by_cases hc : d.counters.contains name = true
    · rw [register_declared hc, record, if_pos (hdeclared.mp hc)]
      exact h
    · have hnames : (d.register (.counter name)).counters.names = d.counters.names ++ [name] := by
        rw [register_undeclared hc]
        exact List.map_append
      rw [record, if_neg fun hmem => hc (hdeclared.mpr hmem)]
      refine h.append (by rw [register_undeclared hc]; rfl) hnames ?_
      rw [hnames, ← List.concat_eq_append]
      exact h.nodup.concat fun hmem => hc (Counters.contains_iff.mpr hmem)
  | style entry => exact h.append rfl (List.append_nil _).symm h.nodup
  | colour entry => exact h.append rfl (List.append_nil _).symm h.nodup
  | command entry => exact h.append rfl (List.append_nil _).symm h.nodup

/-- So does any number of them. -/
theorem Mirrors.foldl_register (h : Mirrors log d) (l : List Registration) :
    Mirrors (l.foldl record log) (l.foldl Document.register d) := by
  induction l generalizing log d with
  | nil => exact h
  | cons r l ih => exact ih (h.register r)

/-- A document that was started mirrors what it was started with. -/
theorem mirrors_opened (o : DocumentOptions) (entries : List ColourEntry) :
    Mirrors (effective (builtIns ++ entries.map Registration.colour)) (opened o entries) := by
  have hblank : Mirrors [] (blank o) := ⟨rfl, rfl, rfl, rfl, rfl, List.nodup_nil⟩
  obtain ⟨hd, hcolours, hstyles, hcommands, hcounters, hnodup⟩ :=
    hblank.foldl_register (builtIns ++ entries.map Registration.colour)
  exact ⟨hd, hcolours, hstyles, hcommands, hcounters, hnodup⟩

/-! ## Reading a mirrored document -/

/-- The document has the entry in its registry, or the counter declared. -/
def Holds (d : Document) : Registration → Prop
  | .counter name => d.counters.contains name = true
  | .style entry => entry ∈ d.styles.entries
  | .colour entry => entry ∈ d.colours.entries
  | .command entry => entry ∈ d.commands.entries

/-- What a document holds is what comes last in its log. -/
theorem Mirrors.holds_iff (h : Mirrors log d) (r : Registration) :
    d.Holds r ↔ r.LastIn log := by
  cases r with
  | counter name =>
    rw [counter_lastIn_iff (h.counters ▸ h.nodup), ← mem_counters_iff, ← h.counters]
    exact Counters.contains_iff
  | style entry =>
    rw [Holds, h.styles]
    exact isView_style.mem_iff log entry
  | colour entry =>
    rw [Holds, h.colours]
    exact isView_colour.mem_iff log entry
  | command entry =>
    rw [Holds, h.commands]
    exact isView_command.mem_iff log entry

/-- What a document holds has its definition, and no later one takes its place. -/
theorem Mirrors.definition_last (h : Mirrors log d) {r : Registration} (hr : d.Holds r) :
    ∃ before after, log = before ++ r :: after ∧
      d.buffer.definitions
        = (Preamble.listCommands :: before.map fragment) ++ r.fragment :: after.map fragment ∧
      ∀ s ∈ after, ¬ s.SameKey r := by
  obtain ⟨before, after, rfl, hafter⟩ := (h.holds_iff r).mp hr
  refine ⟨before, after, rfl, ?_, hafter⟩
  rw [h.definitions, List.map_append, List.map_cons, List.cons_append]

/-- What stands in the definitions is of a kind and name that the document holds. -/
theorem Mirrors.exists_held (h : Mirrors log d) {r : Registration} (hr : r ∈ log) :
    ∃ s : Registration, s.SameKey r ∧ d.Holds s := by
  obtain ⟨s, hs, hlast⟩ := exists_lastIn hr
  exact ⟨s, hs, (h.holds_iff s).mpr hlast⟩

/-- A declared counter has one declaration, and any other name has none. -/
theorem Mirrors.count_declaration (h : Mirrors log d) (name : String) :
    d.buffer.definitions.count (counter name).fragment
      = if d.counters.contains name then 1 else 0 := by
  have hmem : d.counters.contains name ↔ name ∈ d.counters.names := Counters.contains_iff
  rw [h.definitions, List.count_cons_of_ne (listCommands_ne_counter name),
    count_fragment_counter, ← h.counters, h.nodup.count]
  simp only [hmem]

end Register

end Document

end Galley
