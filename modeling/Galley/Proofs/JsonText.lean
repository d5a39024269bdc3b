/-
`Proofs/JsonText.lean` -- the compact text of a JSON value reads back as the value.

The reader is three functions that call each other and count their steps down, and a text is
put together by joining the texts of items and members with commas. Both are brought to one
form first, what stands behind the first item up to the closing character. The induction is
on the steps: with as many as a text has characters each of the three gets to its end, and
what may stand behind a value is all that it needs to know about the rest.
-/
import Galley.Proofs.JsonScalars

set_option autoImplicit false

namespace Galley.Json

/-! ## Values -/

/-- Every number in the value is spelt by the grammar. -/
inductive WellSpelt : Json → Prop where
  | null : WellSpelt .null
  | bool (value : Bool) : WellSpelt (.bool value)
  | number {n : Number} : n.WellSpelt → WellSpelt (.number n)
  | string (content : Option String) : WellSpelt (.string content)
  | array {items : List Json} : (∀ item ∈ items, WellSpelt item) → WellSpelt (.array items)
  | object {members : List (Option String × Json)} :
      (∀ member ∈ members, WellSpelt member.2) → WellSpelt (.object members)

theorem wellSpelt_record {members : List (String × Json)}
    (h : ∀ member ∈ members, member.2.WellSpelt) : (record members).WellSpelt := by
  refine .object fun member hmember => ?_
  obtain ⟨written, hwritten, rfl⟩ := List.mem_map.mp hmember
  exact h written hwritten

/-- The text of a member. -/
def memberText (member : Option String × Json) : String :=
  quoteText member.1 ++ ":" ++ compact member.2

theorem compactItems_eq (items : List Json) : compactItems items = items.map compact := by
  induction items with
  | nil => rfl
  | cons item items ih => rw [compactItems, ih, List.map_cons]

theorem compactMembers_eq (members : List (Option String × Json)) :
    compactMembers members = members.map memberText := by
  induction members with
  | nil => rfl
  | cons member members ih => rw [compactMembers, ih, List.map_cons, memberText]

/-- What stands behind the first of several texts up to a closing character: the others, each
after a comma. -/
def closeTail (close : Char) : List String → List Char
  | [] => [close]
  | text :: texts => ',' :: (text.toList ++ closeTail close texts)

theorem intercalate_eq_closeTail (close : Char) (text : String) (texts : List String) :
    (String.intercalate "," (text :: texts)).toList ++ [close]
      = text.toList ++ closeTail close texts := by
  induction texts generalizing text with
  | nil =>
    rw [closeTail]
    rfl
  | cons next texts ih =>
    rw [String.intercalate_cons_cons, String.toList_append, List.append_assoc, ih,
      String.toList_append, List.append_assoc, closeTail]
    rfl

theorem toList_compact_array (item : Json) (items : List Json) :
    (compact (.array (item :: items))).toList
      = '[' :: ((compact item).toList ++ closeTail ']' (items.map compact)) := by
  rw [compact, compactItems_eq, List.map_cons, String.toList_append, String.toList_append,
    ← intercalate_eq_closeTail, List.append_assoc]
  rfl

theorem toList_compact_object (member : Option String × Json)
    (members : List (Option String × Json)) :
    (compact (.object (member :: members))).toList
      = '\x7b' :: ((memberText member).toList ++ closeTail '\x7d' (members.map memberText)) := by
  rw [compact, compactMembers_eq, List.map_cons, String.toList_append, String.toList_append,
    ← intercalate_eq_closeTail, List.append_assoc]
  rfl

theorem skipGaps_cons {c : Char} (h : isGap c = false) (cs : List Char) :
    skipGaps (c :: cs) = c :: cs :=
  List.dropWhile_cons_of_neg (by simp [h])

/-- A number begins with its sign or with a digit. -/
theorem Number.head_spell {n : Number} (h : n.WellSpelt) :
    ∃ c cs, n.spell.toList = c :: cs ∧ (c = '-' ∨ c.isDigit = true) := by
  obtain ⟨d, whole, hwhole⟩ := List.exists_cons_of_ne_nil h.whole
  have hd : d.isDigit = true := h.digits d (by simp [hwhole])
  rw [toList_spell, hwhole]
  cases n.negative with
  | true => exact ⟨'-', _, rfl, .inl rfl⟩
  | false => exact ⟨d, _, rfl, .inr hd⟩

/-- A value begins with a character that is no blank and closes no array. -/
theorem head_compact {j : Json} (h : WellSpelt j) :
    ∃ c cs, (compact j).toList = c :: cs ∧ isGap c = false ∧ c ≠ ']' := by
  cases h with
  | null => exact ⟨'n', _, rfl, by decide, by decide⟩
  | bool value =>
    cases value with
    | true => exact ⟨'t', _, rfl, by decide, by decide⟩
    | false => exact ⟨'f', _, rfl, by decide, by decide⟩
  | string content =>
    obtain ⟨inner, hinner, -⟩ := readString_quoteText content []
    exact ⟨'"', inner, hinner, by decide, by decide⟩
  | @number n hn =>
    obtain ⟨c, cs, hcs, hc⟩ := n.head_spell hn
    refine ⟨c, cs, hcs, ?_⟩
    rcases hc with rfl | hc
    · decide
    · have hne : ∀ d : Char, d.isDigit = false → c ≠ d := fun d hd => Number.ne_of_isDigit hc hd
      refine ⟨?_, hne ']' (by decide)⟩
      simp [isGap, hne ' ' (by decide), hne '\n' (by decide), hne '\t' (by decide),
        hne '\r' (by decide)]
  | @array items hitems =>
    cases items with
    | nil => exact ⟨'[', [']'], rfl, by decide, by decide⟩
    | cons item items => exact ⟨'[', _, toList_compact_array item items, by decide, by decide⟩
  | @object members hmembers =>
    cases members with
    | nil => exact ⟨'\x7b', ['\x7d'], rfl, by decide, by decide⟩
    | cons member members =>
      exact ⟨'\x7b', _, toList_compact_object member members, by decide, by decide⟩

/-! ## Reading values -/

/-- Within `steps` steps the reader gets through every value whose text is no longer. -/
def ReadsValues (steps : Nat) : Prop :=
  ∀ (j : Json) (rest : List Char), WellSpelt j → (compact j).toList.length ≤ steps →
    Follows rest → readValue steps ((compact j).toList ++ rest) = some (j, rest)

/-- The same for the items that are left of an array. -/
def ReadsItems (steps : Nat) : Prop :=
  ∀ (done : List Json) (item : Json) (items : List Json) (rest : List Char),
    (∀ j ∈ item :: items, WellSpelt j) →
    (compact item).toList.length + (closeTail ']' (items.map compact)).length ≤ steps →
    readItems steps done ((compact item).toList ++ (closeTail ']' (items.map compact) ++ rest))
      = some (.array (done.reverse ++ item :: items), rest)

/-- The same for the members that are left of an object. -/
def ReadsMembers (steps : Nat) : Prop :=
  ∀ (done : List (Option String × Json)) (member : Option String × Json)
    (members : List (Option String × Json)) (rest : List Char),
    (∀ m ∈ member :: members, WellSpelt m.2) →
    (memberText member).toList.length + (closeTail '\x7d' (members.map memberText)).length
      ≤ steps →
    readMembers steps done
        ((memberText member).toList ++ (closeTail '\x7d' (members.map memberText) ++ rest))
      = some (.object (done.reverse ++ member :: members), rest)

theorem length_closeTail_pos (close : Char) (texts : List String) :
    0 < (closeTail close texts).length := by
  cases texts <;> simp [closeTail]

theorem follows_closeTail {close : Char} (h : close = ']' ∨ close = '\x7d') (texts : List String)
    (rest : List Char) : Follows (closeTail close texts ++ rest) := by
  intro c hc
  cases texts with
  | nil =>
    cases hc
    exact .inr h
  | cons text texts =>
    cases hc
    exact .inl rfl

variable {steps : Nat}

theorem readsItems_succ (hvalues : ReadsValues steps) (hitems : ReadsItems steps) :
    ReadsItems (steps + 1) := by
  intro done item items rest hspelt hlength
  obtain ⟨hitem, hspelt⟩ := List.forall_mem_cons.mp hspelt
  have hpos := length_closeTail_pos ']' (items.map compact)
  have hread := hvalues item (closeTail ']' (items.map compact) ++ rest) hitem (by omega)
    (follows_closeTail (.inl rfl) _ _)
  rw [readItems, hread]
  cases items with
  | nil =>
    simp only [List.map_nil, closeTail, List.cons_append, List.nil_append,
      skipGaps_cons (show isGap ']' = false by decide), List.reverse_cons]
  | cons next items =>
    have hnext := hitems (item :: done) next items rest hspelt (by
      simp only [List.map_cons, closeTail, List.length_cons, List.length_append] at hlength
      omega)
    simp only [List.map_cons, closeTail, List.cons_append,
      skipGaps_cons (show isGap ',' = false by decide), List.append_assoc]
    rw [hnext, List.reverse_cons, List.append_assoc, List.singleton_append]

theorem readsMembers_succ (hvalues : ReadsValues steps) (hmembers : ReadsMembers steps) :
    ReadsMembers (steps + 1) := by
  intro done member members rest hspelt hlength
  obtain ⟨key, value⟩ := member
  obtain ⟨hvalue, hspelt⟩ := List.forall_mem_cons.mp hspelt
  have hpos := length_closeTail_pos '\x7d' (members.map memberText)
  have htext : (memberText (key, value)).toList
      = (quoteText key).toList ++ ':' :: (compact value).toList := by
    rw [memberText, String.toList_append, String.toList_append, List.append_assoc]
    rfl
  have hread := hvalues value (closeTail '\x7d' (members.map memberText) ++ rest) hvalue (by
    rw [htext, List.length_append, List.length_cons] at hlength
    omega) (follows_closeTail (.inr rfl) _ _)
  obtain ⟨inner, hinner, hkey⟩ := readString_quoteText key
    (':' :: ((compact value).toList ++ (closeTail '\x7d' (members.map memberText) ++ rest)))
  rw [htext, hinner, List.append_assoc, List.cons_append, List.cons_append, readMembers,
    skipGaps_cons (by decide)]
  simp only [hkey, skipGaps_cons (show isGap ':' = false by decide), hread]
  cases members with
  | nil =>
    simp only [List.map_nil, closeTail, List.cons_append, List.nil_append,
      skipGaps_cons (show isGap '\x7d' = false by decide), List.reverse_cons]
  | cons next members =>
    have hnext := hmembers ((key, value) :: done) next members rest hspelt (by
      simp only [List.map_cons, closeTail, List.length_cons, List.length_append] at hlength
      omega)
    simp only [List.map_cons, closeTail, List.cons_append,
      skipGaps_cons (show isGap ',' = false by decide), List.append_assoc]
    rw [hnext, List.reverse_cons, List.append_assoc, List.singleton_append]

/-- What begins with a sign or a digit can only be a number. -/
theorem readValue_number {c : Char} (hc : c = '-' ∨ c.isDigit = true) (cs : List Char) :
    readValue (steps + 1) (c :: cs)
      = (readNumber (c :: cs)).map fun (spelt, rest) => (.number spelt, rest) := by
  have hne : ∀ d : Char, d ≠ '-' → d.isDigit = false → c ≠ d := by
    rintro d hminus hd rfl
    exact hc.elim hminus fun hdigit => by cases hdigit.symm.trans hd
  have hgap : isGap c = false := by
    simp [isGap, hne ' ' (by decide) (by decide), hne '\n' (by decide) (by decide),
      hne '\t' (by decide) (by decide), hne '\r' (by decide) (by decide)]
  rw [readValue, skipGaps_cons hgap]
  split
  case h_7 => rfl
  all_goals
    next heq =>
      cases heq
      exact absurd rfl (hne _ (by decide) (by decide))

theorem readsValues_succ (hitems : ReadsItems steps) (hmembers : ReadsMembers steps) :
    ReadsValues (steps + 1) := by
  intro j rest hspelt hlength hrest
  cases hspelt with
  | null => rfl
  | bool value => cases value <;> rfl
  | @number n hn =>
    obtain ⟨c, cs, hcs, hc⟩ := n.head_spell hn
    have hread := Number.readNumber_spell hn hrest
    rw [compact, hcs, List.cons_append, readValue_number hc, ← List.cons_append, ← hcs, hread]
    rfl
  | string content =>
    obtain ⟨inner, hinner, hread⟩ := readString_quoteText content rest
    rw [compact, hinner, List.cons_append, readValue, skipGaps_cons (by decide)]
    simp only [hread, Option.map_some]
  | @array items hspelt =>
    cases items with
    | nil => rfl
    | cons item items =>
      obtain ⟨c, cs, hcs, hgap, hclose⟩ := head_compact (hspelt item List.mem_cons_self)
      have htext := toList_compact_array item items
      rw [htext, List.length_cons, List.length_append] at hlength
      have hread := hitems [] item items rest hspelt (by omega)
      rw [hcs, List.cons_append] at hread
      rw [htext, List.cons_append, List.append_assoc, readValue, skipGaps_cons (by decide), hcs]
      simp only [List.cons_append, skipGaps_cons hgap]
      split
      · next heq =>
        cases heq
        exact absurd rfl hclose
      · exact hread
  | @object members hspelt =>
    cases members with
    | nil => rfl
    | cons member members =>
      have htext := toList_compact_object member members
      rw [htext, List.length_cons, List.length_append] at hlength
      have hread := hmembers [] member members rest hspelt (by omega)
      obtain ⟨inner, hinner, -⟩ := readString_quoteText member.1 []
      have hmember : (memberText member).toList
          = '"' :: (inner ++ (":" ++ compact member.2).toList) := by
        rw [memberText, String.append_assoc, String.toList_append, hinner, List.cons_append]
      rw [hmember, List.cons_append] at hread
      rw [htext, List.cons_append, List.append_assoc, readValue, skipGaps_cons (by decide),
        hmember]
      simp only [List.cons_append, skipGaps_cons (show isGap '"' = false by decide)]
      exact hread

/-- **The reader keeps up with the printer.** The induction is on the steps; each part of the
reader passes one step less on. -/
theorem reads_all (steps : Nat) : ReadsValues steps ∧ ReadsItems steps ∧ ReadsMembers steps := by
  induction steps with
  | zero =>
    refine ⟨?_, ?_, ?_⟩
    · intro j rest hspelt hlength
      obtain ⟨c, cs, hcs, -⟩ := head_compact hspelt
      rw [hcs] at hlength
      exact absurd hlength (Nat.not_succ_le_zero _)
    · intro done item items rest _ hlength
      have hpos := length_closeTail_pos ']' (items.map compact)
      omega
    · intro done member members rest _ hlength
      have hpos := length_closeTail_pos '\x7d' (members.map memberText)
      omega
  | succ steps ih =>
    obtain ⟨hvalues, hitems, hmembers⟩ := ih
    exact ⟨readsValues_succ hitems hmembers, readsItems_succ hvalues hitems,
      readsMembers_succ hvalues hmembers⟩

/-- **Values.** A value whose numbers are spelt by the grammar is read back from its compact
text. -/
theorem parse?_compact {j : Json} (h : j.WellSpelt) : parse? (compact j) = some j := by
  have hread := (reads_all ((compact j).toList.length + 1)).1 j [] h (Nat.le_succ _) nofun
  rw [List.append_nil] at hread
  rw [parse?, hread]
  rfl

end Galley.Json
