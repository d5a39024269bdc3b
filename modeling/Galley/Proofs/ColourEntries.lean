/-
`Proofs/ColourEntries.lean` -- colour entries are normal forms, and their definitions say
what they are.

An entry is made of a name that passes a check and a value in normal form. Making it again
of its own parts gives the same entry, because a normal form is its own normal form: the
six digits of a colour read back, and a trimmed text has nothing to trim.

A definition has the name, the model and the value in a group each. The name cannot hold a
brace and the model is one of five words, so each of the two ends at the first brace that
closes a group. What is left then is the value, and it may hold anything.
-/
import Galley.Proofs.HexColours
import Galley.Proofs.Names

set_option autoImplicit false

namespace Galley

namespace Tex

/-- A group without closing braces inside is told apart from what follows it. -/
theorem group_append_inj {a b s t : String} (ha : '\x7d' ∉ a.toList) (hb : '\x7d' ∉ b.toList)
    (h : group a ++ s = group b ++ t) : a = b ∧ s = t := by
  have htext : ∀ x y : String,
      (group x ++ y).toList = '\x7b' :: (x.toList ++ '\x7d' :: y.toList) := by
    intro x y
    simp [group]
  -- Up to the first closing brace stands the inside of the group.
  have hinside : ∀ x y : String, '\x7d' ∉ x.toList →
      (x.toList ++ '\x7d' :: y.toList).takeWhile (· ≠ '\x7d') = x.toList := by
    intro x y hx
    have hall : ∀ c ∈ x.toList, decide (c ≠ '\x7d') = true := by
      intro c hc
      exact decide_eq_true fun hclose => hx (hclose ▸ hc)
    rw [List.takeWhile_append_of_pos hall, List.takeWhile_cons_of_neg (by simp), List.append_nil]
  have hlist := congrArg String.toList h
  rw [htext, htext, List.cons.injEq] at hlist
  have hfirst := congrArg (List.takeWhile (· ≠ '\x7d')) hlist.2
  rw [hinside a s ha, hinside b t hb] at hfirst
  obtain rfl := String.toList_inj.mp hfirst
  have hrest : s.toList = t.toList := by simpa using hlist.2
  exact ⟨rfl, String.toList_inj.mp hrest⟩

end Tex

open Registry Tex

theorem ColourModel.name_inj {model model' : ColourModel} (h : model.name = model'.name) :
    model = model' := by
  revert h
  cases model <;> cases model' <;> decide

theorem ColourModel.brace_not_mem_name (model : ColourModel) : '\x7d' ∉ model.name.toList := by
  cases model <;> decide

namespace ColourEntry

variable {name value normal : String} {model : ColourModel} {e e' : ColourEntry}

/-! ## Names -/

/-- **Which texts name a colour**: those that are not empty and hold no blank and none of the
characters that mean something to a typesetter. -/
theorem isName_iff : isName name = true ↔
    name ≠ "" ∧ ∀ c ∈ name.toList, Text.isBlank c = false ∧ c ∉ forbiddenInColourName := by
  have hfree : ∀ c, (!(Text.isBlank c || forbiddenInColourName.contains c)) = true ↔
      Text.isBlank c = false ∧ c ∉ forbiddenInColourName := by
    intro c
    rw [Bool.not_eq_true', Bool.or_eq_false_iff, List.contains_eq_mem, decide_eq_false_iff_not]
  rw [isName, Bool.and_eq_true, List.all_eq_true, Bool.not_eq_true', String.isEmpty_eq_false_iff]
  exact and_congr_right fun _ => forall₂_congr fun c _ => hfree c

/-! ## Values -/

theorem normalise_of_ne_html (h : model ≠ .html) (value : String) :
    normalise model value = .ok (Text.trim value) := by
  cases model with
  | html => exact absurd rfl h
  | rgb => rfl
  | rgbFraction => rfl
  | cmyk => rfl
  | gray => rfl

theorem normalise_html_ok_iff : normalise .html value = .ok normal ↔
    ∃ colour, Colour.Spells value colour ∧ normal = colour.toHtml := by
  simp only [← Colour.parseHex_ok_iff_spells, normalise]
  cases Colour.parseHex value with
  | error fault => simp [Except.map]
  | ok colour => simp [Except.map, eq_comm]

/-- Only digits of a colour can be wrong. -/
theorem normalise_isOk_iff : (∃ normal, normalise model value = .ok normal) ↔
    (model = .html → ∃ colour, Colour.Spells value colour) := by
  by_cases hmodel : model = .html
  · subst hmodel
    simp only [normalise_html_ok_iff, true_implies]
    constructor
    · rintro ⟨-, colour, hspells, -⟩
      exact ⟨colour, hspells⟩
    · rintro ⟨colour, hspells⟩
      exact ⟨colour.toHtml, colour, hspells, rfl⟩
  · exact iff_of_true ⟨_, normalise_of_ne_html hmodel value⟩ fun h => absurd h hmodel

/-- **A normal form is its own normal form.** -/
theorem normalise_normal (h : normalise model value = .ok normal) :
    normalise model normal = .ok normal := by
  by_cases hmodel : model = .html
  · subst hmodel
    obtain ⟨colour, -, rfl⟩ := normalise_html_ok_iff.mp h
    have hspells := Colour.parseHex_ok_iff_spells.mp (Colour.parseHex_toHtml colour)
    exact normalise_html_ok_iff.mpr ⟨colour, hspells, rfl⟩
  · rw [normalise_of_ne_html hmodel] at h
    obtain rfl := Except.ok.inj h
    rw [normalise_of_ne_html hmodel, Text.trim_trim]

/-! ## Entries -/

theorem make_eq (hname : isName name = true) (hvalue : normalise model value = .ok normal) :
    make name value model = .ok ⟨name, normal, model⟩ := by
  rw [make, if_pos hname, hvalue]

theorem make_isOk_iff : (∃ e, make name value model = .ok e) ↔
    isName name = true ∧ (model = .html → ∃ colour, Colour.Spells value colour) := by
  rw [← normalise_isOk_iff]
  constructor
  · rintro ⟨e, he⟩
    obtain ⟨hname, hvalue, -⟩ := Registration.colour_of_make he
    exact ⟨hname, e.value, hvalue⟩
  · rintro ⟨hname, normal, hvalue⟩
    exact ⟨_, make_eq hname hvalue⟩

/-- **An entry makes itself again.** -/
theorem make_self (h : make name value model = .ok e) : make e.name e.value e.model = .ok e := by
  obtain ⟨hname, hvalue, rfl, rfl⟩ := Registration.colour_of_make h
  exact make_eq hname (normalise_normal hvalue)

theorem definition_eq (e : ColourEntry) :
    Entry.definition e = control "definecolor" ++ (group e.name ++ (group e.model.name ++
      group e.value)) := by
  simp [Entry.definition, command]

/-- **A definition says what it defines**, whatever the value is. -/
theorem definition_inj (hname : '\x7d' ∉ e.name.toList) (hname' : '\x7d' ∉ e'.name.toList)
    (h : Entry.definition e = Entry.definition e') : e = e' := by
  rw [definition_eq, definition_eq, String.append_right_inj] at h
  obtain ⟨hsameName, hrest⟩ := group_append_inj hname hname' h
  obtain ⟨hsameWord, hvalue⟩ :=
    group_append_inj e.model.brace_not_mem_name e'.model.brace_not_mem_name hrest
  -- The value is in the last group, so nothing has to tell its braces from that of the group.
  have hsameModel : e.model = e'.model := ColourModel.name_inj hsameWord
  have hsameValue : e.value = e'.value := by simpa [group] using hvalue
  cases e
  cases e'
  simp_all

theorem brace_not_mem_name (h : make name value model = .ok e) : '\x7d' ∉ e.name.toList := by
  obtain ⟨hname, -, rfl, -⟩ := Registration.colour_of_make h
  intro hbrace
  exact ((isName_iff.mp hname).2 _ hbrace).2 (by decide)

/-- **Entries are normal forms that their definitions tell apart.** An entry can be made of
every name that is not empty and free of blanks and special characters, and of every value
that the model can have; it keeps the name and the model. Making it again of its own name, value
and model gives it back. Entries with equal definitions have one name, one model and one value,
although a value may be any text unless the model is that of hexadecimal digits. -/
theorem entries_are_normal_forms :
    (∀ (name value : String) (model : ColourModel), (∃ e, make name value model = .ok e) ↔
      (name ≠ "" ∧ ∀ c ∈ name.toList, Text.isBlank c = false ∧
        c ∉ ['\x7b', '\x7d', '\\', '%', '#', '$', '&', '^', '_', '~', ',', '!']) ∧
      (model = .html → ∃ colour, Colour.Spells value colour)) ∧
    (∀ (name value : String) (model : ColourModel) (e : ColourEntry),
      make name value model = .ok e →
        make e.name e.value e.model = .ok e ∧ e.name = name ∧ e.model = model ∧ e.name ≠ "" ∧
        ∀ c ∈ e.name.toList, Text.isBlank c = false ∧
          c ∉ ['\x7b', '\x7d', '\\', '%', '#', '$', '&', '^', '_', '~', ',', '!']) ∧
    ∀ (name name' value value' : String) (model model' : ColourModel) (e e' : ColourEntry),
      make name value model = .ok e → make name' value' model' = .ok e' →
        Entry.definition e = Entry.definition e' →
        e.name = e'.name ∧ e.model = e'.model ∧ e.value = e'.value := by
  refine ⟨fun name value model => ?_, fun name value model e h => ?_, ?_⟩
  · rw [make_isOk_iff, isName_iff]
    rfl
  · obtain ⟨hname, -, hsameName, hsameModel⟩ := Registration.colour_of_make h
    rw [← hsameName] at hname
    obtain ⟨hne, hfree⟩ := isName_iff.mp hname
    exact ⟨make_self h, hsameName, hsameModel, hne, hfree⟩
  · intro name name' value value' model model' e e' h h' hdefinition
    obtain rfl := definition_inj (brace_not_mem_name h) (brace_not_mem_name h') hdefinition
    exact ⟨rfl, rfl, rfl⟩

/-- A spelling of a colour becomes its digits, which stay as they are; and a value that closes its
group and opens another is no name, model and value of another entry. -/
theorem awkward_values_are_kept :
    let digits : ColourEntry := ⟨"accent", "AABBCC", .html⟩
    let grey : ColourEntry := ⟨"accent", "0.5\x7d\x7b0", .gray⟩
    make "accent" "\t#aBc " .html = .ok digits ∧
      make digits.name digits.value digits.model = .ok digits ∧
      make "accent" " 0.5\x7d\x7b0\n" .gray = .ok grey ∧
      make grey.name grey.value grey.model = .ok grey ∧
      Entry.definition grey ≠ Entry.definition digits ∧
      ¬ ∃ e, make "accent\x7d\x7bgray" "0.5" .gray = .ok e := by
  intro digits grey
  obtain ⟨haccepted, hagain, hapart⟩ := entries_are_normal_forms
  have hdigits : make "accent" "\t#aBc " .html = .ok digits := by decide
  have hgrey : make "accent" " 0.5\x7d\x7b0\n" .gray = .ok grey := by decide
  refine ⟨hdigits, (hagain _ _ _ _ hdigits).1, hgrey, (hagain _ _ _ _ hgrey).1, fun h => ?_,
    fun h => ?_⟩
  · have hmodel := (hapart _ _ _ _ _ _ _ _ hgrey hdigits h).2.1
    exact absurd hmodel (by decide)
  · obtain ⟨⟨-, hfree⟩, -⟩ := (haccepted _ _ _).mp h
    exact (hfree '\x7d' (by decide)).2 (by decide)

end ColourEntry

end Galley
