/-
`Proofs/Trimming.lean` -- what is left of a text when the blanks around it are taken away.

Trimming is two scans, one from either end. What they leave has no blank at its ends, and
it stands in the text between two runs of blanks. The two facts together say what a text
is trimmed to, so nothing below has to look at the scans again.
-/
import Galley.Text.Blank
import Mathlib.Data.List.DropRight
import Mathlib.Data.List.TakeWhile

set_option autoImplicit false

namespace Galley.Text

/-- A run of blank characters. -/
def Blank (cs : List Char) : Prop := ∀ c ∈ cs, isBlank c = true

/-- Neither the first character is blank nor the last one. -/
def Trimmed (cs : List Char) : Prop :=
  (∀ c, cs.head? = some c → isBlank c = false) ∧ ∀ c, cs.getLast? = some c → isBlank c = false

variable {before inner after : List Char}

theorem blank_nil : Blank [] := List.forall_mem_nil _

/-- The second scan reads from the right. -/
theorem trimBlanks_eq (cs : List Char) :
    trimBlanks cs = (cs.dropWhile isBlank).rdropWhile isBlank := rfl

/-- A text whose characters are all no blanks is trimmed. -/
theorem trimmed_of_forall {cs : List Char} (h : ∀ c ∈ cs, isBlank c = false) : Trimmed cs :=
  ⟨fun c hc => h c (List.mem_of_mem_head? hc), fun c hc => h c (List.mem_of_getLast? hc)⟩

/-- The blanks at either end of a text go. -/
theorem trimBlanks_of_trimmed (hbefore : Blank before) (hinner : Trimmed inner)
    (hafter : Blank after) : trimBlanks (before ++ inner ++ after) = inner := by
  rw [trimBlanks_eq, List.append_assoc, List.dropWhile_append_of_pos hbefore]
  cases inner with
  | nil =>
    have hall : after.dropWhile isBlank = [] := List.dropWhile_eq_nil_iff.mpr hafter
    rw [List.nil_append, hall, List.rdropWhile_nil]
  | cons c cs =>
    have hfirst : ¬ isBlank c = true := by
      rw [hinner.1 c rfl]
      exact Bool.false_ne_true
    have hlast : ¬ isBlank ((c :: cs).getLast (List.cons_ne_nil c cs)) = true := by
      rw [hinner.2 _ (List.getLast?_eq_some_getLast (List.cons_ne_nil c cs))]
      exact Bool.false_ne_true
    have hscan : ((c :: cs) ++ after).rdropWhile isBlank = (c :: cs).rdropWhile isBlank := by
      have hreverse : ∀ d ∈ after.reverse, isBlank d = true :=
        fun d hd => hafter d (List.mem_reverse.mp hd)
      rw [List.rdropWhile, List.reverse_append, List.dropWhile_append_of_pos hreverse]
      rfl
    rw [List.cons_append, List.dropWhile_cons_of_neg hfirst, ← List.cons_append, hscan,
      List.rdropWhile_eq_self_iff.mpr fun _ => hlast]

/-- Every text stands between blanks around what it is trimmed to. -/
theorem exists_blanks (cs : List Char) :
    ∃ before after, Blank before ∧ Blank after ∧ cs = before ++ trimBlanks cs ++ after := by
  have hsuffix : ∀ ds : List Char,
      ds.rdropWhile isBlank ++ ds.rtakeWhile isBlank = ds := by
    intro ds
    rw [List.rdropWhile, List.rtakeWhile, ← List.reverse_append, List.takeWhile_append_dropWhile,
      List.reverse_reverse]
  refine ⟨cs.takeWhile isBlank, (cs.dropWhile isBlank).rtakeWhile isBlank,
    fun c hc => List.mem_takeWhile_imp hc, fun c hc => List.mem_rtakeWhile_imp hc, ?_⟩
  rw [trimBlanks_eq, List.append_assoc, hsuffix, List.takeWhile_append_dropWhile]

theorem trimmed_trimBlanks (cs : List Char) : Trimmed (trimBlanks cs) := by
  rw [trimBlanks_eq]
  refine ⟨fun c hc => ?_, fun c hc => ?_⟩
  · -- The scan from the right leaves the beginning of what it is given.
    have hprefix := List.rdropWhile_prefix isBlank (cs.dropWhile isBlank)
    have hhead : (cs.dropWhile isBlank).head? = some c := by
      obtain ⟨rest, hrest⟩ := hprefix
      rw [← hrest, List.head?_append, hc, Option.some_or]
    simpa [hhead] using List.head?_dropWhile_not isBlank cs
  · have hne : (cs.dropWhile isBlank).rdropWhile isBlank ≠ [] := by
      rintro hnil
      rw [hnil] at hc
      cases hc
    have hlast := List.rdropWhile_last_not isBlank (cs.dropWhile isBlank) hne
    rw [List.getLast?_eq_some_getLast hne, Option.some.injEq] at hc
    rw [hc] at hlast
    exact Bool.eq_false_iff.mpr hlast

/-- **What a text is trimmed to**: the part of it between blanks that has no blank at its
ends. -/
theorem trimBlanks_eq_iff {cs : List Char} :
    trimBlanks cs = inner ↔
      Trimmed inner ∧
        ∃ before after, Blank before ∧ Blank after ∧ cs = before ++ inner ++ after := by
  constructor
  · rintro rfl
    exact ⟨trimmed_trimBlanks cs, exists_blanks cs⟩
  · rintro ⟨hinner, before, after, hbefore, hafter, rfl⟩
    exact trimBlanks_of_trimmed hbefore hinner hafter

/-- A trimmed text is left as it is. -/
theorem trim_trim (s : String) : trim (trim s) = trim s := by
  have hinner : trimBlanks ([] ++ trimBlanks s.toList ++ []) = trimBlanks s.toList :=
    trimBlanks_of_trimmed blank_nil (trimmed_trimBlanks s.toList) blank_nil
  rw [List.nil_append, List.append_nil] at hinner
  rw [trim, trim, String.toList_ofList, hinner]

end Galley.Text
