/-
`Proofs/LatestEntries.lean` -- a registry as a map from names to their latest entries.

What can be done to a registry is to insert an entry and to clear it. However often and in
whatever order this is done, what comes before the last clearing is forgotten, and the
registry is that of the entries inserted since. So everything that can be asked of it is
answered by that list of entries: a name is registered if an entry of the list has it, it
leads to the last one that does, and the registered names are those of the list, each once,
in the order of their bytes.
-/
import Galley.Proofs.ByteOrder
import Galley.Proofs.Registry
import Galley.Registry.Entry
import Mathlib.Data.Finset.Card
import Mathlib.Data.List.DropRight
import Mathlib.Tactic.TFAE

set_option autoImplicit false

namespace Galley.Registry

/-! ## Changes -/

/-- What can be done to a registry. -/
inductive Change (ε : Type) where
  | insert (e : ε)
  | clear

namespace Change

variable {ε : Type}

/-- The entry that a change inserts. -/
def entry? : Change ε → Option ε
  | insert e => some e
  | clear => none

/-- The entries that were inserted since the last clearing, in order. -/
def sinceClear (changes : List (Change ε)) : List ε :=
  (changes.rtakeWhile fun change => change.entry?.isSome).filterMap entry?

/-- One more insertion is one more entry, and a clearing leaves none. -/
theorem sinceClear_concat (changes : List (Change ε)) (change : Change ε) :
    sinceClear (changes ++ [change])
      = change.entry?.elim [] fun e => sinceClear changes ++ [e] := by
  cases change with
  | insert e =>
    rw [sinceClear, List.rtakeWhile_concat_pos _ _ _ rfl, List.filterMap_append]
    rfl
  | clear =>
    rw [sinceClear, List.rtakeWhile_concat_neg _ _ _ Bool.false_ne_true]
    rfl

variable [Entry ε]

/-- The registry after a change. -/
def on : Change ε → Registry ε → Registry ε
  | insert e, r => r.insert e
  | clear, _ => empty

/-- The registry that changes make of an empty one. -/
def onEmpty (changes : List (Change ε)) : Registry ε :=
  changes.foldl (fun r change => change.on r) empty

theorem onEmpty_concat (changes : List (Change ε)) (change : Change ε) :
    onEmpty (changes ++ [change]) = change.on (onEmpty changes) :=
  List.foldl_append

/-- A change to the registry of a list is an entry more in the list, or a new list. -/
theorem on_ofList (change : Change ε) (entries : List ε) :
    change.on (ofList entries) = ofList (change.entry?.elim [] fun e => entries ++ [e]) := by
  cases change with
  | insert e => exact (ofList_append_singleton entries e).symm
  | clear => rfl

/-- The registry is that of the entries inserted since the last clearing. The induction is on
the changes from the right, since the last one decides what is left of those before it. -/
theorem onEmpty_eq_ofList (changes : List (Change ε)) :
    onEmpty changes = ofList (sinceClear changes) := by
  induction changes using List.reverseRecOn with
  | nil => rfl
  | append_singleton changes change ih => rw [onEmpty_concat, ih, on_ofList, sinceClear_concat]

end Change

/-! ## The registry of a list of entries -/

variable {ε : Type} [Entry ε]

/-- The last entry of a name in a list. -/
def IsLatest (name : String) (e : ε) (entries : List ε) : Prop :=
  ∃ before after, entries = before ++ e :: after ∧ Entry.name e = name ∧
    ∀ x ∈ after, Entry.name x ≠ name

theorem findRev?_eq_some_iff {name : String} {e : ε} {entries : List ε} :
    entries.findRev? (fun x => Entry.name x = name) = some e ↔ IsLatest name e entries := by
  rw [List.findRev?_eq_find?_reverse, List.find?_eq_some_iff_append, IsLatest]
  constructor
  · rintro ⟨hname, later, earlier, hsplit, hlater⟩
    refine ⟨earlier.reverse, later.reverse, ?_, by simpa using hname, fun x hx => ?_⟩
    · simpa using congrArg List.reverse hsplit
    · simpa using hlater x (List.mem_reverse.mp hx)
  · rintro ⟨before, after, rfl, hname, hafter⟩
    refine ⟨by simpa using hname, after.reverse, before.reverse, by simp, fun x hx => ?_⟩
    simpa using hafter x (List.mem_reverse.mp hx)

theorem contains_ofList_iff {entries : List ε} {name : String} :
    (ofList entries).contains name = true ↔ ∃ e ∈ entries, Entry.name e = name := by
  rw [contains, find?_ofList, List.findRev?_eq_find?_reverse, List.find?_isSome]
  simp only [List.mem_reverse, decide_eq_true_eq]

theorem nodup_names {r : Registry ε} (h : Sorted r) : r.names.Nodup :=
  (List.pairwise_map.mpr h).imp String.ne_of_lt

/-- However often a name was inserted, it is counted once. -/
theorem size_ofList (entries : List ε) :
    (ofList entries).size = (entries.map Entry.name).toFinset.card := by
  have hnames : (ofList entries).names.toFinset = (entries.map Entry.name).toFinset := by
    ext name
    rw [List.mem_toFinset, List.mem_toFinset, mem_names_iff, contains_ofList_iff, List.mem_map]
  rw [← hnames, List.toFinset_card_of_nodup (nodup_names (sorted_ofList entries)), names,
    List.length_map, size]

/-- The names are in the order of their bytes. -/
theorem Sorted.names_encode {r : Registry ε} (h : Sorted r) :
    r.names.Pairwise fun a b => Text.Utf8.encode a < Text.Utf8.encode b :=
  (List.pairwise_map.mpr h).imp Text.Utf8.encode_lt_encode_iff.mpr

/-- **A registry is a map.** After any insertions and clearings, the names are strictly
increasing in the order of their bytes, and there are as many as different names were
inserted since the last clearing. A name is contained exactly if looking it up succeeds, if
it is one of the names, and if an entry of it was inserted since the last clearing. What it
leads to is the last of these entries, and an insertion under another name does not change
that. -/
theorem keeps_latest_entries (changes : List (Change ε)) :
    ((Change.onEmpty changes).names.Pairwise
      fun a b => Text.Utf8.encode a < Text.Utf8.encode b) ∧
    (Change.onEmpty changes).size
      = ((Change.sinceClear changes).map Entry.name).toFinset.card ∧
    ((Change.onEmpty changes).size = 0 ↔ (Change.onEmpty changes).isEmpty = true) ∧
    (∀ name, List.TFAE [
      (Change.onEmpty changes).contains name = true,
      ∃ e, (Change.onEmpty changes).get name = .ok e,
      name ∈ (Change.onEmpty changes).names,
      ∃ e ∈ Change.sinceClear changes, Entry.name e = name]) ∧
    (∀ name e, (Change.onEmpty changes).get name = .ok e
      ↔ IsLatest name e (Change.sinceClear changes)) ∧
    ∀ e name, Entry.name e ≠ name →
      (Change.onEmpty (changes ++ [.insert e])).get name = (Change.onEmpty changes).get name := by
  have hlist : Change.onEmpty changes = ofList (Change.sinceClear changes) :=
    Change.onEmpty_eq_ofList changes
  refine ⟨?order, ?count, ?none, fun name => ?known, fun name e => ?latest,
    fun e name hname => ?other⟩
  case order =>
    rw [hlist]
    exact (sorted_ofList _).names_encode
  case count => rw [hlist, size_ofList]
  case none => rw [size, isEmpty, List.length_eq_zero_iff, List.isEmpty_iff]
  case known =>
    tfae_have 1 ↔ 2 := exists_get_iff.symm
    tfae_have 1 ↔ 3 := mem_names_iff.symm
    tfae_have 1 ↔ 4 := by rw [hlist, contains_ofList_iff]
    tfae_finish
  case latest => rw [get_eq_ok_iff, hlist, find?_ofList, findRev?_eq_some_iff]
  case other => rw [Change.onEmpty_concat, Change.on, get, get, find?_insert, if_neg hname]

/-- A colour that is gone with a clearing, one that is set twice, and names whose order by
bytes is neither that of their insertion nor that of their UTF-16 units. -/
theorem recoloured_name_is_kept_once :
    let changes : List (Change ColourEntry) :=
      [.insert ⟨"faded", "0", .gray⟩, .insert ⟨"é", "0", .gray⟩, .clear,
        .insert ⟨"😀", "0.5", .gray⟩, .insert ⟨"é", "0.1", .gray⟩, .insert ⟨"\uffff", "1", .gray⟩,
        .insert ⟨"é", "00AA00", .html⟩, .insert ⟨"Z", "1", .gray⟩]
    (Change.onEmpty changes).names = ["Z", "é", "\uffff", "😀"] ∧
      (Change.onEmpty changes).size = 4 ∧
      (Change.onEmpty changes).get "é" = .ok ⟨"é", "00AA00", .html⟩ ∧
      (Change.onEmpty changes).contains "faded" = false ∧
      "e" ≠ "é" ∧
      (Change.onEmpty (changes ++ [.insert ⟨"e", "1", .gray⟩])).get "é"
        = .ok ⟨"é", "00AA00", .html⟩ := by
  intro changes
  obtain ⟨-, hsize, -, hknown, hget, hother⟩ := keeps_latest_entries changes
  have hlatest : (Change.onEmpty changes).get "é" = .ok ⟨"é", "00AA00", .html⟩ :=
    (hget _ _).mpr ⟨[⟨"😀", "0.5", .gray⟩, ⟨"é", "0.1", .gray⟩, ⟨"\uffff", "1", .gray⟩],
      [⟨"Z", "1", .gray⟩], rfl, rfl, by decide⟩
  have hfaded : ¬ (Change.onEmpty changes).contains "faded" = true :=
    mt ((hknown "faded").out 0 3).mp (by decide)
  refine ⟨by decide, ?_, hlatest, Bool.eq_false_iff.mpr hfaded, by decide, ?_⟩
  · rw [hsize]
    decide
  · exact (hother ⟨"e", "1", .gray⟩ "é" (by decide)).trans hlatest

end Galley.Registry
