/-
`Proofs/Registry.lean` -- a registry as the sum of what was put into it.

An insertion decides what one name leads to and nothing else, so after any number of
insertions a name leads to the last entry that has it. The entries stay strictly
increasing by name, and so a registered entry is the one that its name leads to. The
second part needs the order and the first does not: a look-up stops at the first entry
of a name, whatever comes later in the list. Counters are kept apart from the entries;
what matters of them here is which are declared.
-/
import Galley.Registry.Counters
import Mathlib.Data.List.Induction

set_option autoImplicit false

namespace Galley.Registry

variable {ε : Type} [Entry ε]

/-! ## Look-ups after insertions -/

/-- The registry of a list of entries, put in one after the other. -/
def ofList (entries : List ε) : Registry ε := entries.foldl insert {}

theorem ofList_append_singleton (entries : List ε) (e : ε) :
    ofList (entries ++ [e]) = (ofList entries).insert e := by
  rw [ofList, List.foldl_append]
  rfl

/-- The new entry is found under its name, and every other name leads where it led. -/
theorem find?_insertEntry (e : ε) (l : List ε) (name : String) :
    (insertEntry e l).find? (fun x => Entry.name x = name)
      = if Entry.name e = name then some e else l.find? fun x => Entry.name x = name := by
  induction l with
  | nil => by_cases h : Entry.name e = name <;> simp [insertEntry, h]
  | cons x l ih =>
    rw [insertEntry]
    by_cases hlt : Entry.name e < Entry.name x
    · rw [if_pos hlt]
      by_cases h : Entry.name e = name <;> simp [h]
    · rw [if_neg hlt]
      by_cases heq : Entry.name e = Entry.name x
      · rw [if_pos heq]
        by_cases h : Entry.name e = name
        · simp [h]
        · have hx : Entry.name x ≠ name := fun hx => h (heq.trans hx)
          simp [h, hx]
      · rw [if_neg heq, List.find?_cons, ih]
        by_cases hx : Entry.name x = name
        · have h : Entry.name e ≠ name := fun h => heq (h.trans hx.symm)
          simp [h, hx]
        · simp [hx]

theorem find?_insert (r : Registry ε) (e : ε) (name : String) :
    (r.insert e).find? name = if Entry.name e = name then some e else r.find? name :=
  find?_insertEntry e r.entries name

/-- **The last write wins.** -/
theorem find?_ofList (entries : List ε) (name : String) :
    (ofList entries).find? name = entries.findRev? fun e => Entry.name e = name := by
  induction entries using List.reverseRecOn with
  | nil => rfl
  | append_singleton entries e ih =>
    rw [ofList_append_singleton, find?_insert, ih, List.findRev?_eq_find?_reverse,
      List.findRev?_eq_find?_reverse, List.reverse_append]
    by_cases h : Entry.name e = name <;> simp [h]

/-! ## The order of the entries -/

/-- The entries are strictly increasing by name. -/
def Sorted (r : Registry ε) : Prop :=
  r.entries.Pairwise fun a b => Entry.name a < Entry.name b

theorem mem_insertEntry {e x : ε} {l : List ε} (h : x ∈ insertEntry e l) : x = e ∨ x ∈ l := by
  induction l with
  | nil => exact .inl (List.mem_singleton.mp h)
  | cons y l ih =>
    rw [insertEntry] at h
    split at h
    · exact List.mem_cons.mp h
    · split at h
      · exact (List.mem_cons.mp h).imp_right (List.mem_cons_of_mem y)
      · rcases List.mem_cons.mp h with rfl | h
        · exact .inr List.mem_cons_self
        · exact (ih h).imp_right (List.mem_cons_of_mem y)

theorem sorted_insertEntry (e : ε) {l : List ε}
    (h : l.Pairwise fun a b => Entry.name a < Entry.name b) :
    (insertEntry e l).Pairwise fun a b => Entry.name a < Entry.name b := by
  induction l with
  | nil => exact List.pairwise_singleton _ e
  | cons x l ih =>
    obtain ⟨hx, hl⟩ := List.pairwise_cons.mp h
    rw [insertEntry]
    split
    · next hlt =>
      refine List.pairwise_cons.mpr ⟨fun y hy => ?_, h⟩
      rcases List.mem_cons.mp hy with rfl | hy
      · exact hlt
      · exact String.lt_trans hlt (hx y hy)
    · next hlt =>
      split
      · next heq => exact List.pairwise_cons.mpr ⟨fun y hy => heq ▸ hx y hy, hl⟩
      · next hne =>
        refine List.pairwise_cons.mpr ⟨fun y hy => ?_, ih hl⟩
        rcases mem_insertEntry hy with rfl | hy
        · exact Std.lt_of_le_of_ne (String.not_lt.mp hlt) (Ne.symm hne)
        · exact hx y hy

theorem sorted_insert {r : Registry ε} (h : Sorted r) (e : ε) : Sorted (r.insert e) :=
  sorted_insertEntry e h

theorem sorted_ofList (entries : List ε) : Sorted (ofList entries) := by
  induction entries using List.reverseRecOn with
  | nil => exact List.Pairwise.nil
  | append_singleton entries e ih =>
    rw [ofList_append_singleton]
    exact sorted_insert ih e

/-- A registered entry is what its name leads to. -/
theorem find?_of_mem {r : Registry ε} (h : Sorted r) {e : ε} (he : e ∈ r.entries) :
    r.find? (Entry.name e) = some e := by
  obtain ⟨before, after, hr⟩ := List.append_of_mem he
  rw [Sorted, hr, List.pairwise_append] at h
  have hbefore : ∀ x ∈ before, Entry.name x ≠ Entry.name e := fun x hx =>
    String.ne_of_lt (h.2.2 x hx e List.mem_cons_self)
  have hnone : before.find? (fun x => Entry.name x = Entry.name e) = none :=
    List.find?_eq_none.mpr fun x hx => by simpa using hbefore x hx
  rw [find?, hr, List.find?_append, hnone]
  simp

theorem mem_iff_find? {r : Registry ε} (h : Sorted r) {e : ε} :
    e ∈ r.entries ↔ r.find? (Entry.name e) = some e :=
  ⟨find?_of_mem h, List.mem_of_find?_eq_some⟩

/-- An insertion drops the entry that had the name, and no other one. -/
theorem mem_insert {r : Registry ε} (h : Sorted r) {e x : ε} :
    x ∈ (r.insert e).entries ↔ e = x ∨ Entry.name e ≠ Entry.name x ∧ x ∈ r.entries := by
  rw [mem_iff_find? (sorted_insert h e), find?_insert, mem_iff_find? h]
  by_cases hname : Entry.name e = Entry.name x
  · simp [hname]
  · have hne : e ≠ x := fun he => hname (congrArg Entry.name he)
    simp [hname, hne]

/-! ## Registered names -/

/-- A name is registered when an entry has it. -/
theorem contains_iff_mem {r : Registry ε} {name : String} :
    r.contains name = true ↔ ∃ e ∈ r.entries, Entry.name e = name := by
  rw [contains, find?, List.find?_isSome]
  simp only [decide_eq_true_eq]

theorem mem_names_iff {r : Registry ε} {name : String} :
    name ∈ r.names ↔ r.contains name = true := by
  rw [contains_iff_mem, names, List.mem_map]

theorem get_eq_ok_iff {r : Registry ε} {name : String} {e : ε} :
    r.get name = .ok e ↔ r.find? name = some e := by
  rw [get]
  cases r.find? name with
  | some x => simp only [Except.ok.injEq, Option.some.injEq]
  | none => exact iff_of_false nofun nofun

theorem exists_get_iff {r : Registry ε} {name : String} :
    (∃ e, r.get name = .ok e) ↔ r.contains name = true := by
  simp only [get_eq_ok_iff, contains, Option.isSome_iff_exists]

/-- A registered name leads to an entry of that name. -/
theorem exists_get {r : Registry ε} {name : String} (h : r.contains name = true) :
    ∃ e, r.get name = .ok e ∧ Entry.name e = name := by
  obtain ⟨e, he⟩ := exists_get_iff.mpr h
  exact ⟨e, he, by simpa using List.find?_some (get_eq_ok_iff.mp he)⟩

/-- Only a name that is not registered is missed, and the error says which. -/
theorem get_error_iff {r : Registry ε} {name : String} {e : Error} :
    r.get name = .error e ↔ r.contains name = false ∧ e = .unknown (Entry.kind ε) name := by
  rw [get, contains]
  cases r.find? name with
  | some entry => exact iff_of_false nofun fun h => Bool.noConfusion h.1
  | none => exact ⟨fun h => ⟨rfl, (Except.error.inj h).symm⟩, fun h => congrArg _ h.2.symm⟩

/-- An insertion makes its own name known and no other one. -/
theorem contains_insert {r : Registry ε} {e : ε} {name : String}
    (h : (r.insert e).contains name = true) : r.contains name = true ∨ Entry.name e = name := by
  rw [contains, find?_insert] at h
  by_cases hname : Entry.name e = name
  · exact .inr hname
  · rw [if_neg hname] at h
    exact .inl h

end Galley.Registry

namespace Galley.Counters

/-! ## Counters -/

/-- The names of the declared counters, in the order of their declaration. -/
def names (cs : Counters) : List String := cs.declared.map Counter.name

theorem contains_iff {cs : Counters} {name : String} : cs.contains name ↔ name ∈ cs.names := by
  simp [contains, names]

/-- A declaration makes its own name known and no other one. -/
theorem contains_declare {cs : Counters} {counter name : String}
    (h : contains { declared := cs.declared ++ [⟨counter, 0⟩] } name = true) :
    cs.contains name = true ∨ counter = name := by
  rw [contains, List.any_append, Bool.or_eq_true] at h
  exact h.imp_right fun hnew => by simpa using hnew

/-- A step changes a value and no name. -/
theorem names_step {cs cs' : Counters} {name : String} {fragment : Fragment}
    (h : cs.step name = .ok (fragment, cs')) : cs'.names = cs.names := by
  rw [step] at h
  split at h
  · cases h
    rw [names, names, List.map_map]
    refine List.map_congr_left fun c _ => ?_
    by_cases hc : c.name = name <;> simp [hc]
  · cases h

end Galley.Counters
