/-
`Proofs/Cleaning.lean` -- cleaning, character by character.

The cleaner goes over the whole text nine times, and a later pass meets what an earlier
one has put in: the group behind the word for a caret gets a backslash in front of each
of its braces. Only then are the backslashes dropped, those of the text and those of the
passes alike. Two things make this one map over the characters. A pass works on each
character alone, so all of them together do, and what they make of a text is what they
make of its characters one after the other. And for a single character the nine passes
can be looked at: what they put around it is a backslash, unless it is a caret or a tilde.
-/
import Galley.Text.Cleaning
import Mathlib.Data.Bool.AllAny

set_option autoImplicit false

namespace Galley.Text

/-- What cleaning makes of one character. -/
def cleanChar (c : Char) : List Char :=
  if c = '^' then "textasciicircum\x7b\x7d".toList
  else if c = '~' then "textasciitilde\x7b\x7d".toList
  else if c = '\\' then []
  else [c]

/-! ## The passes work on each character alone -/

/-- The passes of a table over a text, in their order. -/
def runPasses (passes : List (Char × List Char)) (cs : List Char) : List Char :=
  passes.foldl (fun cs pass => substitute cs pass.1 pass.2) cs

theorem runPasses_append (passes : List (Char × List Char)) (cs ds : List Char) :
    runPasses passes (cs ++ ds) = runPasses passes cs ++ runPasses passes ds := by
  induction passes generalizing cs ds with
  | nil => rfl
  | cons pass passes ih =>
    have hpass : substitute (cs ++ ds) pass.1 pass.2
        = substitute cs pass.1 pass.2 ++ substitute ds pass.1 pass.2 := List.flatMap_append
    calc runPasses (pass :: passes) (cs ++ ds)
        = runPasses passes (substitute (cs ++ ds) pass.1 pass.2) := rfl
      _ = runPasses (pass :: passes) cs ++ runPasses (pass :: passes) ds := by
        rw [hpass, ih]
        rfl

/-- A character that no pass looks for is left as it is. -/
theorem runPasses_singleton {passes : List (Char × List Char)} {c : Char}
    (h : ∀ pass ∈ passes, c ≠ pass.1) : runPasses passes [c] = [c] := by
  induction passes with
  | nil => rfl
  | cons pass passes ih =>
    obtain ⟨hpass, hpasses⟩ := List.forall_mem_cons.mp h
    have hfirst : substitute [c] pass.1 pass.2 = [c] := by
      simp only [substitute, List.flatMap_singleton, if_neg hpass]
    calc runPasses (pass :: passes) [c]
        = runPasses passes (substitute [c] pass.1 pass.2) := rfl
      _ = [c] := by rw [hfirst, ih hpasses]

theorem cleanChars_append (cs ds : List Char) :
    cleanChars (cs ++ ds) = cleanChars cs ++ cleanChars ds := by
  have hpasses := runPasses_append substitutions cs ds
  calc cleanChars (cs ++ ds)
      = (runPasses substitutions (cs ++ ds)).filter (· ≠ '\\') := rfl
    _ = cleanChars cs ++ cleanChars ds := by
      rw [hpasses, List.filter_append]
      rfl

/-! ## One character -/

/-- On one character the passes can be looked at: ten characters are special to them, and
every other one goes through. -/
theorem cleanChars_singleton (c : Char) : cleanChars [c] = cleanChar c := by
  by_cases hspecial : c ∈ '\\' :: substitutions.map Prod.fst
  · have hall : ∀ d ∈ '\\' :: substitutions.map Prod.fst, cleanChars [d] = cleanChar d :=
      List.all_iff_forall_prop.mp (by decide)
    exact hall c hspecial
  · obtain ⟨hbackslash, hpasses⟩ := not_or.mp (mt List.mem_cons.mpr hspecial)
    have hother : ∀ pass ∈ substitutions, c ≠ pass.1 := by
      rintro pass hpass rfl
      exact hpasses (List.mem_map_of_mem hpass)
    have hcaret : c ≠ '^' := hother ('^', "\\textasciicircum\x7b\x7d".toList) (by decide)
    have htilde : c ≠ '~' := hother ('~', "\\textasciitilde\x7b\x7d".toList) (by decide)
    calc cleanChars [c]
        = (runPasses substitutions [c]).filter (· ≠ '\\') := rfl
      _ = [c] := by
        rw [runPasses_singleton hother]
        exact List.filter_cons_of_pos (by simpa using hbackslash)
      _ = cleanChar c := by
        rw [cleanChar, if_neg hcaret, if_neg htilde, if_neg hbackslash]

/-- **The passes are one map.** The induction is on the text; each character goes through
all the passes before the next one is looked at. -/
theorem cleanChars_eq_flatMap (cs : List Char) : cleanChars cs = cs.flatMap cleanChar := by
  induction cs with
  | nil => rfl
  | cons c cs ih =>
    calc cleanChars (c :: cs)
        = cleanChars [c] ++ cleanChars cs := cleanChars_append [c] cs
      _ = (c :: cs).flatMap cleanChar := by
        rw [cleanChars_singleton, ih, List.flatMap_cons]

/-! ## What comes out -/

/-- Nothing that cleaning would change comes out of it. -/
theorem plain_of_mem_cleanChar {c d : Char} (h : d ∈ cleanChar c) :
    d ≠ '\\' ∧ d ≠ '^' ∧ d ≠ '~' := by
  have hcircum : ∀ d ∈ "textasciicircum\x7b\x7d".toList, d ≠ '\\' ∧ d ≠ '^' ∧ d ≠ '~' :=
    List.all_iff_forall_prop.mp (by decide)
  have htilde : ∀ d ∈ "textasciitilde\x7b\x7d".toList, d ≠ '\\' ∧ d ≠ '^' ∧ d ≠ '~' :=
    List.all_iff_forall_prop.mp (by decide)
  rw [cleanChar] at h
  split at h
  · exact hcircum d h
  · next hcaret =>
    split at h
    · exact htilde d h
    · next htilde =>
      split at h
      · exact absurd h List.not_mem_nil
      · next hbackslash =>
        obtain rfl := List.mem_singleton.mp h
        exact ⟨hbackslash, hcaret, htilde⟩

theorem plain_of_mem_clean {s : String} {d : Char} (h : d ∈ (clean s).toList) :
    d ≠ '\\' ∧ d ≠ '^' ∧ d ≠ '~' := by
  rw [clean, String.toList_ofList, cleanChars_eq_flatMap] at h
  obtain ⟨c, -, hd⟩ := List.mem_flatMap.mp h
  exact plain_of_mem_cleanChar hd

/-- A text without the three characters is clean already. -/
theorem flatMap_cleanChar_of_plain {cs : List Char} (h : ∀ c ∈ cs, c ≠ '\\' ∧ c ≠ '^' ∧ c ≠ '~') :
    cs.flatMap cleanChar = cs := by
  induction cs with
  | nil => rfl
  | cons c cs ih =>
    obtain ⟨⟨hbackslash, hcaret, htilde⟩, hcs⟩ := List.forall_mem_cons.mp h
    have hfirst : cleanChar c = [c] := by
      rw [cleanChar, if_neg hcaret, if_neg htilde, if_neg hbackslash]
    rw [List.flatMap_cons, hfirst, ih hcs, List.singleton_append]

/-- **Cleaning is one map over the characters.** A caret and a tilde come out as their
words with an empty group, a backslash as nothing and every other character as itself. So
the parts of a text can be cleaned apart, none of the three characters is left, and a
clean text stays as it is. -/
theorem cleaning_is_characterwise :
    (∀ s : String, clean s = String.ofList (s.toList.flatMap fun c =>
      if c = '^' then "textasciicircum\x7b\x7d".toList
      else if c = '~' then "textasciitilde\x7b\x7d".toList
      else if c = '\\' then []
      else [c])) ∧
    (∀ s t : String, clean (s ++ t) = clean s ++ clean t) ∧
    (∀ s : String, ∀ c ∈ (clean s).toList, c ≠ '\\' ∧ c ≠ '^' ∧ c ≠ '~') ∧
    ∀ s : String, clean (clean s) = clean s := by
  have hmap : ∀ s : String, clean s = String.ofList (s.toList.flatMap cleanChar) := by
    intro s
    rw [clean, cleanChars_eq_flatMap]
  refine ⟨hmap, fun s t => ?_, fun s c hc => plain_of_mem_clean hc, fun s => ?_⟩
  · rw [hmap, hmap, hmap, String.toList_append, List.flatMap_append, String.ofList_append]
  · have hplain : (clean s).toList.flatMap cleanChar = (clean s).toList :=
      flatMap_cleanChar_of_plain fun c hc => plain_of_mem_clean hc
    rw [hmap (clean s), hplain, String.ofList_toList]

/-- The braces that the passes put in are met again by the passes after them, and what they
add is dropped. -/
example : clean "x^2 \\alpha~50%" = "xtextasciicircum\x7b\x7d2 alphatextasciitilde\x7b\x7d50%" := by
  decide

end Galley.Text
