/-
`Proofs/Lists.lean` -- lists drop none of their items.

The labels of a list are letters, and entries are made of labels and items as long as there
are both. That would drop every item without a letter; but more items than letters are
refused, so each item has the letter of its place. The entries are lines if the items are,
and then the items are read off them, also one that is spelt like the entry of another.
-/
import Galley.Construct
import Galley.Proofs.Lines

set_option autoImplicit false

namespace Galley.Construct

open Tex

/-! ## Entries -/

/-- A letter of the alphabet by its place. -/
def letter (i : Nat) : Char := Char.ofNat ('a'.toNat + i)

/-- The line of an item by its place in the list. -/
def itemLine (i : Nat) (item : String) : String :=
  "\x7b(" ++ (letter i).toString ++ ")\x7d\x7b" ++ item ++ "\x7d"

/-- The lines of a list. -/
def listLines (items : List String) : List String :=
  "\\lst" :: items.mapIdx itemLine ++ ["\\stoplst"]

/-- The labels are the letters in order, as many as a list can have items. -/
theorem getElem?_labels {i : Nat} (hi : i < maxItems) : labels[i]? = some (letter i) := by
  have hlabels : ∀ i < maxItems, labels[i]? = some (letter i) := by decide
  exact hlabels i hi

theorem listItem_letter (i : Nat) (item : String) :
    listItem (letter i) item = itemLine i item ++ "\n" := by
  have hopen : "\x7b(" = "\x7b" ++ "(" := rfl
  have hbetween : ")\x7d\x7b" = ")" ++ "\x7d" ++ "\x7b" := rfl
  simp only [listItem, itemLine, group, hopen, hbetween, String.append_assoc]

/-- Each item has its label, since there are labels enough. -/
theorem zipWith_listItem {items : List String} (h : items.length ≤ maxItems) :
    List.zipWith listItem labels items
      = (items.mapIdx itemLine).map fun line => line ++ "\n" := by
  -- The labels are more than the items, so the two sides end together.
  apply List.ext_getElem?
  intro i
  by_cases hi : i < items.length
  · have hlabel := getElem?_labels (Nat.lt_of_lt_of_le hi h)
    simp [List.getElem?_zipWith, hlabel, hi, listItem_letter]
  · have hitem : items[i]? = none := List.getElem?_eq_none (Nat.le_of_not_lt hi)
    simp [List.getElem?_zipWith, hitem]

/-- The fragment of a list is its lines. -/
theorem intercalate_listLines (items : List String) :
    String.intercalate "\n" (listLines items)
      = "\\lst\n" ++ String.join ((items.mapIdx itemLine).map fun line => line ++ "\n")
        ++ "\\stoplst" := by
  have hstop : String.intercalate "\n" ["\\stoplst"] = "\\stoplst" := String.intercalate_singleton
  rw [listLines, List.cons_append, String.intercalate_cons_of_ne_nil (by simp),
    ← join_lines _ (by simp), hstop, String.append_assoc]
  rfl

theorem list_of_le {items : List String} (h : items.length ≤ maxItems) :
    list items = .ok (String.intercalate "\n" (listLines items)) := by
  rw [list, if_neg (Nat.not_lt_of_le h), zipWith_listItem h, intercalate_listLines]
  rfl

theorem list_of_lt {items : List String} (h : maxItems < items.length) :
    list items = .error (.tooManyItems items.length maxItems) := by
  rw [list, if_pos h]

theorem list_ok_iff {items : List String} {fragment : Fragment} :
    list items = .ok fragment ↔
      items.length ≤ maxItems ∧ fragment = String.intercalate "\n" (listLines items) := by
  by_cases h : items.length ≤ maxItems
  · rw [list_of_le h]
    simp [h, @eq_comm _ fragment]
  · rw [list_of_lt (Nat.lt_of_not_le h)]
    simp [h]

theorem lines_listLines {items : List String} (h : ∀ item ∈ items, '\n' ∉ item.toList)
    (hlength : items.length ≤ maxItems) :
    lines (String.intercalate "\n" (listLines items)) = listLines items := by
  have hletters : ∀ i < maxItems, letter i ≠ '\n' := by decide
  refine pieces_intercalate (by simp [listLines]) fun line hline => ?_
  simp only [listLines, List.cons_append, List.mem_cons, List.mem_append, List.mem_mapIdx,
    List.not_mem_nil, or_false] at hline
  rcases hline with rfl | ⟨i, hi, rfl⟩ | rfl
  · decide
  · have hletter : letter i ≠ '\n' := hletters i (Nat.lt_of_lt_of_le hi hlength)
    have hitem : '\n' ∉ items[i].toList := h _ (List.getElem_mem hi)
    simp [itemLine, hitem, hletter.symm]
  · decide

/-- The lines of a list say what is in it. -/
theorem listLines_inj {items items' : List String} (heq : listLines items = listLines items') :
    items = items' := by
  rw [listLines, listLines, List.cons_append, List.cons_append, List.cons.injEq,
    List.append_cancel_right_eq] at heq
  have hlength : items.length = items'.length := by
    simpa using congrArg List.length heq.2
  refine List.ext_getElem hlength fun i hi hi' => ?_
  have hline : itemLine i items[i] = itemLine i items'[i] := by
    have hlines := congrArg (fun lines => lines[i]?) heq.2
    simpa [hi, hi'] using hlines
  exact framed_inj hline

/-- **A list drops no item.** It is refused for having more items than there are letters, and for
nothing else. What is written otherwise is an entry for each item in order, behind the letter
of its place, between the two commands of a list. If the items are lines, they are read off
the fragment. -/
theorem lists_keep_their_items :
    (∀ items : List String,
      ((list items).isOk = true ↔ items.length ≤ 26) ∧
      ∀ e, list items = .error e ↔ 26 < items.length ∧ e = .tooManyItems items.length 26) ∧
    (∀ (items : List String) (fragment : Fragment), list items = .ok fragment →
      fragment
          = "\\lst\n" ++ String.join ((items.mapIdx itemLine).map fun line => line ++ "\n")
            ++ "\\stoplst" ∧
        (∀ i < items.length, (letter i).toNat = 'a'.toNat + i) ∧
        ((∀ item ∈ items, '\n' ∉ item.toList) → lines fragment = listLines items)) ∧
    ∀ (items items' : List String) (fragment : Fragment),
      (∀ item ∈ items, '\n' ∉ item.toList) → (∀ item ∈ items', '\n' ∉ item.toList) →
        list items = .ok fragment → list items' = .ok fragment → items = items' := by
  refine ⟨fun items => ?_, fun items fragment hlist => ?_,
    fun items items' fragment h h' hlist hlist' => ?_⟩
  · rcases Nat.lt_or_ge maxItems items.length with hlong | hshort
    · rw [list_of_lt hlong]
      have hnot : ¬ items.length ≤ 26 := Nat.not_le_of_lt hlong
      exact ⟨iff_of_false nofun hnot, fun e =>
        ⟨fun he => ⟨hlong, (Except.error.inj he).symm⟩, fun he => congrArg Except.error he.2.symm⟩⟩
    · rw [list_of_le hshort]
      exact ⟨iff_of_true rfl hshort, fun e =>
        iff_of_false nofun fun he => absurd he.1 (Nat.not_lt_of_le hshort)⟩
  · obtain ⟨hlength, rfl⟩ := list_ok_iff.mp hlist
    have hletters : ∀ i < maxItems, (letter i).toNat = 'a'.toNat + i := by decide
    exact ⟨intercalate_listLines items, fun i hi => hletters i (Nat.lt_of_lt_of_le hi hlength),
      fun h => lines_listLines h hlength⟩
  · obtain ⟨hlength, hfragment⟩ := list_ok_iff.mp hlist
    obtain ⟨hlength', hfragment'⟩ := list_ok_iff.mp hlist'
    -- Equal fragments have equal lines, which are those of the two lists.
    apply listLines_inj
    rw [← lines_listLines h hlength, ← lines_listLines h' hlength', ← hfragment, ← hfragment']

/-- An item that is spelt like the next entry stays one item: a list with it is no list of the
two. -/
theorem item_like_entry_is_one_item :
    let items := ["x\x7d\x7b(b)\x7d\x7by", ""]
    (∃ fragment, list items = .ok fragment ∧ (lines fragment).length = 4) ∧
      list items ≠ list ["x", "y"] ∧
      list (List.replicate 27 "") = .error (.tooManyItems 27 26) := by
  intro items
  obtain ⟨haccepted, hlines, hinj⟩ := lists_keep_their_items
  have hplain : ∀ item ∈ items, '\n' ∉ item.toList := by decide
  have hlist : list items = .ok _ := list_of_le (by decide)
  obtain ⟨-, -, hread⟩ := hlines items _ hlist
  refine ⟨⟨_, hlist, ?_⟩, fun h => ?_, ((haccepted _).2 _).mpr ⟨by decide, by decide⟩⟩
  · rw [hread hplain]
    decide
  · have hitems := hinj items ["x", "y"] _ hplain (by decide) hlist (h ▸ hlist)
    exact absurd hitems (by decide)

end Galley.Construct
