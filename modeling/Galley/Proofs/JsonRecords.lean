/-
`Proofs/JsonRecords.lean` -- what a record is read from.

An object can say the same in many ways: its members stand in any order, a member can have
another name of its field, members that name no field may stand among them, and a field with
a default can be left out. `IsRecord` is all of these at once, by what each field may hold.
The reader does not see the differences. Putting members into slots does not depend on their
order, a member that names no field is passed over, and so each field that is there gets its
own value and each that is left out gets its default.
-/
import Galley.Json.Decoding
import Mathlib.Data.List.Forall2

set_option autoImplicit false

namespace Galley.Json

/-! ## Records as they may be written -/

/-- A field of a record: its names, its own first, and the values that it may be written
with. -/
structure Part where
  name : String
  aliases : List String := []
  allowed : Json → Prop

namespace Part

/-- All names of the field. -/
def names (p : Part) : FieldNames := p.name :: p.aliases

/-- The member is one for the field: it has one of its names and an allowed value. -/
def Written (p : Part) (member : Option String × Json) : Prop :=
  (∃ key ∈ p.names, member.1 = some key) ∧ p.allowed member.2

/-- The slot of the field is empty if it is left out, and else has an allowed value. -/
def Fits (left : List String) (p : Part) (slot : Option Json) : Prop :=
  if p.name ∈ left then slot = none else ∃ value, slot = some value ∧ p.allowed value

end Part

/-- The value is an object with one member for each field that is not left out, and otherwise
only members that name no field; the members stand in any order. -/
def IsRecord (parts : List Part) (left : List String) (j : Json) : Prop :=
  ∃ members kept extra : List (Option String × Json),
    j = .object members ∧ members.Perm (kept ++ extra) ∧
    List.Forall₂ Part.Written (parts.filter fun p => p.name ∉ left) kept ∧
    ∀ member ∈ extra, ∃ key, member.1 = some key ∧ ∀ p ∈ parts, key ∉ p.names

/-- The value is an array with an item for each entry of a list, in order. -/
def IsArray {α : Type} (spelling : α → Json → Prop) (entries : List α) (j : Json) : Prop :=
  ∃ items, j = .array items ∧ List.Forall₂ spelling entries items

/-- The value is `null` where there is nothing, and else is written for what there is. -/
def IsOptional {α : Type} (spelling : α → Json → Prop) : Option α → Json → Prop
  | none, j => j = .null
  | some a, j => spelling a j

/-- What a record writes, a member under its own name for each field that is not left out, is
one of the ways. -/
theorem isRecord_record {parts : List Part} {left : List String} {members : List (String × Json)}
    (h : List.Forall₂ (fun p member => member.1 = p.name ∧ p.allowed member.2)
      (parts.filter fun p => p.name ∉ left) members) :
    IsRecord parts left (record members) := by
  refine ⟨_, members.map fun member => (some member.1, member.2), [], rfl, ?_, ?_, nofun⟩
  · rw [List.append_nil]
  · rw [List.forall₂_map_right_iff]
    refine h.imp fun p member hmember => ⟨⟨p.name, List.mem_cons_self, ?_⟩, hmember.2⟩
    rw [hmember.1]

theorem isArray_map {α : Type} {spelling : α → Json → Prop} {entries : List α} {write : α → Json}
    (h : ∀ entry ∈ entries, spelling entry (write entry)) :
    IsArray spelling entries (.array (entries.map write)) := by
  refine ⟨_, rfl, ?_⟩
  rw [List.forall₂_map_right_iff, List.forall₂_same]
  exact h

/-! ## The order of the members -/

variable {fields : List FieldNames} {slots : List (Option Json)}

/-- Puts a value into a slot that is empty. -/
def place (i : Nat) (value : Json) (slots : List (Option Json)) : Option (List (Option Json)) :=
  match slots[i]? with
  | some none => some (slots.set i (some value))
  | _ => none

/-- Puts one member into the slot of its field, if it names one. -/
def putMember (fields : List FieldNames) (member : Option String × Json)
    (slots : List (Option Json)) : Option (List (Option Json)) :=
  member.1.bind fun key =>
    match fieldIndex? fields key with
    | none => some slots
    | some i => place i member.2 slots

theorem fillSlots_cons (member : Option String × Json) (members : List (Option String × Json)) :
    fillSlots fields slots (member :: members)
      = (putMember fields member slots).bind fun slots => fillSlots fields slots members := by
  obtain ⟨_ | key, value⟩ := member
  · rw [fillSlots]
    rfl
  · rw [fillSlots, putMember, Option.bind_some]
    cases fieldIndex? fields key with
    | none => rfl
    | some i =>
      simp only [place]
      rcases slots[i]? with _ | _ | _ <;> rfl

theorem place_eq_some_iff {i : Nat} {value : Json} {filled : List (Option Json)} :
    place i value slots = some filled ↔
      slots[i]? = some none ∧ filled = slots.set i (some value) := by
  rw [place]
  rcases slots[i]? with _ | _ | _ <;> simp [eq_comm]

/-- A slot that is empty after another value has been placed was empty before, and it is
another slot. -/
theorem place_place_eq_some_iff {i j : Nat} {v w : Json} {filled : List (Option Json)} :
    (place i v slots).bind (place j w) = some filled ↔
      i ≠ j ∧ slots[i]? = some none ∧ slots[j]? = some none ∧
        filled = (slots.set i (some v)).set j (some w) := by
  simp only [Option.bind_eq_some_iff, place_eq_some_iff]
  constructor
  · rintro ⟨_, ⟨hi, rfl⟩, hj, rfl⟩
    -- A field that is named twice finds its slot taken the second time.
    have hne : i ≠ j := by
      rintro rfl
      have hlt : i < slots.length := (List.getElem?_eq_some_iff.mp hi).1
      rw [List.getElem?_set_self hlt] at hj
      cases hj
    rw [List.getElem?_set_ne hne] at hj
    exact ⟨hne, hi, hj, rfl⟩
  · rintro ⟨hne, hi, hj, rfl⟩
    exact ⟨_, ⟨hi, rfl⟩, by rw [List.getElem?_set_ne hne, hj], rfl⟩

theorem place_comm (i j : Nat) (v w : Json) :
    (place i v slots).bind (place j w) = (place j w slots).bind (place i v) := by
  refine Option.ext fun filled => ?_
  rw [place_place_eq_some_iff, place_place_eq_some_iff]
  constructor
  · rintro ⟨hne, hi, hj, rfl⟩
    exact ⟨Ne.symm hne, hj, hi, List.set_comm _ _ hne⟩
  · rintro ⟨hne, hj, hi, rfl⟩
    exact ⟨Ne.symm hne, hi, hj, List.set_comm _ _ hne⟩

theorem putMember_of_none {key : String} (h : fieldIndex? fields key = none) (value : Json) :
    putMember fields (some key, value) = some := by
  funext slots
  rw [putMember, Option.bind_some, h]

theorem putMember_of_some {key : String} {i : Nat} (h : fieldIndex? fields key = some i)
    (value : Json) : putMember fields (some key, value) = place i value := by
  funext slots
  rw [putMember, Option.bind_some, h]

/-- Two members get into their slots in either order, or in neither. -/
theorem putMember_comm (a b : Option String × Json) :
    (putMember fields a slots).bind (putMember fields b)
      = (putMember fields b slots).bind (putMember fields a) := by
  obtain ⟨_ | key, v⟩ := a
  · cases hb : putMember fields b slots <;> rfl
  · obtain ⟨_ | key', w⟩ := b
    · cases ha : putMember fields (some key, v) slots <;> rfl
    · cases hi : fieldIndex? fields key with
      | none => rw [putMember_of_none hi, Option.bind_some, Option.bind_fun_some]
      | some i =>
        cases hj : fieldIndex? fields key' with
        | none => rw [putMember_of_none hj, Option.bind_some, Option.bind_fun_some]
        | some j => rw [putMember_of_some hi, putMember_of_some hj, place_comm]

/-- **Order.** The order of the members does not matter to the slots. -/
theorem fillSlots_perm {members members' : List (Option String × Json)}
    (h : members.Perm members') (slots : List (Option Json)) :
    fillSlots fields slots members = fillSlots fields slots members' := by
  induction h generalizing slots with
  | nil => rfl
  | cons member _ ih =>
    rw [fillSlots_cons, fillSlots_cons]
    simp only [ih]
  | swap a b members =>
    rw [fillSlots_cons, fillSlots_cons]
    simp only [fillSlots_cons]
    rw [← Option.bind_assoc, ← Option.bind_assoc, putMember_comm]
  | trans _ _ ih₁ ih₂ => rw [ih₁, ih₂]

/-! ## Members that name no field, and fields one by one -/

theorem fieldIndex?_eq_none {key : String} (h : ∀ names ∈ fields, key ∉ names) :
    fieldIndex? fields key = none := by
  rw [fieldIndex?, List.findIdx?_eq_none_iff]
  intro names hnames
  simpa using h names hnames

/-- Members that name no field are passed over. -/
theorem fillSlots_extra {extra : List (Option String × Json)}
    (h : ∀ member ∈ extra, ∃ key, member.1 = some key ∧ ∀ names ∈ fields, key ∉ names) :
    fillSlots fields slots extra = some slots := by
  induction extra with
  | nil => rw [fillSlots]
  | cons member extra ih =>
    obtain ⟨name, value⟩ := member
    obtain ⟨⟨key, hkey, hforeign⟩, hextra⟩ := List.forall_mem_cons.mp h
    obtain rfl : name = some key := hkey
    rw [fillSlots_cons, putMember_of_none (fieldIndex?_eq_none hforeign), Option.bind_some,
      ih hextra]

/-- A field that no member names keeps its slot, and the others are filled as if it was not
there. -/
theorem fillSlots_shift {names : FieldNames} {slot : Option Json}
    {members : List (Option String × Json)}
    (h : ∀ member ∈ members, ∀ key, member.1 = some key → key ∉ names)
    (slots : List (Option Json)) :
    fillSlots (names :: fields) (slot :: slots) members
      = (fillSlots fields slots members).map (slot :: ·) := by
  induction members generalizing slots with
  | nil => rw [fillSlots, fillSlots, Option.map_some]
  | cons member members ih =>
    obtain ⟨hmember, hmembers⟩ := List.forall_mem_cons.mp h
    have hput : putMember (names :: fields) member (slot :: slots)
        = (putMember fields member slots).map (slot :: ·) := by
      obtain ⟨_ | key, value⟩ := member
      · rfl
      · have hother : names.contains key = false := by simpa using hmember key rfl
        have hindex : fieldIndex? (names :: fields) key
            = (fieldIndex? fields key).map (· + 1) := by
          rw [fieldIndex?, List.findIdx?_cons, hother]
          rfl
        cases hi : fieldIndex? fields key with
        | none =>
          rw [hi] at hindex
          rw [putMember_of_none hindex, putMember_of_none hi]
          rfl
        | some i =>
          rw [hi] at hindex
          rw [putMember_of_some hindex, putMember_of_some hi, place, place,
            List.getElem?_cons_succ, List.set_cons_succ]
          rcases slots[i]? with _ | _ | _ <;> rfl
    rw [fillSlots_cons, fillSlots_cons, hput]
    cases putMember fields member slots with
    | none => rfl
    | some filled => exact ih hmembers filled

/-! ## Reading a record -/

variable {parts : List Part} {left : List String}

theorem exists_part {kept : List (Option String × Json)}
    (h : List.Forall₂ Part.Written parts kept) {member : Option String × Json}
    (hmember : member ∈ kept) : ∃ p ∈ parts, p.Written member := by
  induction h with
  | nil => cases hmember
  | @cons p first parts kept hfirst _ ih =>
    rcases List.mem_cons.mp hmember with rfl | hmember
    · exact ⟨p, List.mem_cons_self, hfirst⟩
    · obtain ⟨q, hq, hwritten⟩ := ih hmember
      exact ⟨q, List.mem_cons_of_mem p hq, hwritten⟩

/-- With the members in the order of the fields, each field gets its slot. The induction is on
the fields; what is written for the others names none of this one. -/
theorem fillSlots_kept {kept extra : List (Option String × Json)}
    (hdistinct : (parts.flatMap Part.names).Nodup)
    (hkept : List.Forall₂ Part.Written (parts.filter fun p => p.name ∉ left) kept)
    (hextra : ∀ member ∈ extra, ∃ key, member.1 = some key ∧ ∀ p ∈ parts, key ∉ p.names) :
    ∃ slots,
      fillSlots (parts.map Part.names) (parts.map fun _ => none) (kept ++ extra) = some slots ∧
        List.Forall₂ (Part.Fits left) parts slots := by
  induction parts generalizing kept with
  | nil =>
    obtain rfl := List.forall₂_nil_left_iff.mp hkept
    refine ⟨[], ?_, .nil⟩
    rw [List.nil_append]
    exact fillSlots_extra fun member hmember => by
      obtain ⟨key, hkey, -⟩ := hextra member hmember
      exact ⟨key, hkey, List.forall_mem_nil _⟩
  | cons p parts ih =>
    rw [List.flatMap_cons, List.nodup_append] at hdistinct
    obtain ⟨-, hothers, hapart⟩ := hdistinct
    have hforeign : ∀ member ∈ extra,
        ∃ key, member.1 = some key ∧ ∀ q ∈ parts, key ∉ q.names := by
      intro member hmember
      obtain ⟨key, hkey, hnames⟩ := hextra member hmember
      exact ⟨key, hkey, fun q hq => hnames q (List.mem_cons_of_mem p hq)⟩
    -- Neither the members of the other fields nor the extra ones name this field.
    have hshift : ∀ {kept : List (Option String × Json)},
        List.Forall₂ Part.Written (parts.filter fun q => q.name ∉ left) kept →
        ∀ member ∈ kept ++ extra, ∀ key, member.1 = some key → key ∉ p.names := by
      intro kept hkept member hmember key hkey hname
      rcases List.mem_append.mp hmember with hmember | hmember
      · obtain ⟨q, hq, ⟨key', hkey', hsame⟩, -⟩ := exists_part hkept hmember
        obtain rfl := Option.some.inj (hsame.symm.trans hkey)
        exact hapart _ hname _ (List.mem_flatMap.mpr ⟨q, List.mem_of_mem_filter hq, hkey'⟩) rfl
      · obtain ⟨key', hsame, hnames⟩ := hextra member hmember
        obtain rfl := Option.some.inj (hsame.symm.trans hkey)
        exact hnames p List.mem_cons_self hname
    rw [List.map_cons, List.map_cons]
    by_cases hleft : p.name ∈ left
    · rw [List.filter_cons_of_neg (by simpa using hleft)] at hkept
      obtain ⟨slots, hfill, hfits⟩ := ih hothers hkept hforeign
      refine ⟨none :: slots, ?_, .cons (if_pos hleft |>.mpr rfl) hfits⟩
      rw [fillSlots_shift (hshift hkept), hfill, Option.map_some]
    · rw [List.filter_cons_of_pos (by simpa using hleft)] at hkept
      obtain ⟨⟨name, value⟩, kept, ⟨⟨key, hkey, hname⟩, hvalue⟩, hrest, rfl⟩ :=
        List.forall₂_cons_left_iff.mp hkept
      obtain rfl : name = some key := hname
      obtain ⟨slots, hfill, hfits⟩ := ih hothers hrest hforeign
      have hindex : fieldIndex? (p.names :: parts.map Part.names) key = some 0 := by
        rw [fieldIndex?, List.findIdx?_cons, if_pos (by simpa using hkey)]
      refine ⟨some value :: slots, ?_, .cons (if_neg hleft |>.mpr ⟨value, rfl, hvalue⟩) hfits⟩
      rw [List.cons_append, fillSlots_cons, putMember_of_some hindex, place]
      simp only [List.getElem?_cons_zero, List.set_cons_zero, Option.bind_some]
      rw [fillSlots_shift (hshift hrest), hfill, Option.map_some]

/-- **Records.** Whatever the order, the names and the extra members of an object are, each of
its fields has the slot that fits it. -/
theorem slots?_of_isRecord {j : Json} (hdistinct : (parts.flatMap Part.names).Nodup)
    (h : IsRecord parts left j) :
    ∃ slots, slots? (parts.map Part.names) j = some slots ∧
      List.Forall₂ (Part.Fits left) parts slots := by
  obtain ⟨members, kept, extra, rfl, hperm, hkept, hextra⟩ := h
  obtain ⟨slots, hfill, hfits⟩ := fillSlots_kept hdistinct hkept hextra
  refine ⟨slots, ?_, hfits⟩
  rw [slots?, fillSlots_perm hperm, List.map_map]
  exact hfill

/-! ## Reading fields -/

variable {α : Type} {p : Part} {slot : Option Json} {read : Json → Option α} {a : α}

theorem not_isRecord_null : ¬ IsRecord parts left .null := by
  rintro ⟨_, _, _, ⟨⟩, -⟩

theorem required_of_fits (h : p.Fits left slot) (hkept : p.name ∉ left)
    (hread : ∀ value, p.allowed value → read value = some a) : required read slot = some a := by
  obtain ⟨value, rfl, hvalue⟩ := (if_neg hkept).mp h
  exact hread value hvalue

/-- A field with a default has its value, or its default if it is left out. -/
theorem defaulted_of_fits (h : p.Fits left slot)
    (hread : ∀ value, p.allowed value → read value = some a) (default : α) :
    defaulted default read slot = some (if p.name ∈ left then default else a) := by
  rw [Part.Fits] at h
  split at h
  · next hleft => rw [h, if_pos hleft, defaulted]
  · next hleft =>
    obtain ⟨value, rfl, hvalue⟩ := h
    rw [if_neg hleft, defaulted, hread value hvalue]

theorem asList?_of_isArray {spelling : α → Json → Prop} {entries : List α} {j : Json}
    (h : IsArray spelling entries j)
    (hread : ∀ entry ∈ entries, ∀ item, spelling entry item → read item = some entry) :
    asList? read j = some entries := by
  obtain ⟨items, rfl, hitems⟩ := h
  rw [asList?]
  induction hitems with
  | nil => rfl
  | @cons entry item entries items hitem _ ih =>
    obtain ⟨hentry, hentries⟩ := List.forall_mem_cons.mp hread
    rw [List.mapM_cons, hentry item hitem, ih hentries]
    rfl

theorem asOptional?_of_isOptional {spelling : α → Json → Prop} {entry : Option α} {j : Json}
    (h : IsOptional spelling entry j) (hnull : ∀ a ∈ entry, ¬ spelling a .null)
    (hread : ∀ a ∈ entry, ∀ j, spelling a j → read j = some a) :
    asOptional? read j = some entry := by
  cases entry with
  | none =>
    obtain rfl : j = .null := h
    rfl
  | some a =>
    have hj : asOptional? read j = (read j).map some := by
      cases j with
      | null => exact absurd h (hnull a rfl)
      | _ => rfl
    rw [hj, hread a rfl j h, Option.map_some]

end Galley.Json
