/-
`Proofs/Diagnostics.lean` -- which lines of a log are shown, and how often.

Lines are shown by their positions: that of each error line and of the line after it, in the
order of the log, or those of the last lines if there is no error line. Which positions these
are depends on nothing but which lines are error lines.

The pairs are put one after the other, and so a line that is an error line right after
another is in two of them. Nothing that belongs to the diagnostics is lost, and nothing else
comes in, but such a line stands there twice. An excerpt of the log would have it once. Where
no error line comes right after another, the diagnostics are that excerpt.
-/
import Galley.Typesetter.Diagnostics
import Mathlib.Data.List.Count
import Mathlib.Data.List.Nodup
import Mathlib.Data.List.Perm.Subperm
import Mathlib.Algebra.BigOperators.Group.List.Basic
import Mathlib.Algebra.Ring.Nat

set_option autoImplicit false

namespace Galley.Diagnostics

/-! ## Positions -/

/-- The line at a position is an error line. -/
def IsError (flags : List Bool) (i : Nat) : Prop := flags[i]? = some true

/-- The line at a position comes right after an error line. -/
def IsContext (flags : List Bool) (i : Nat) : Prop :=
  0 < i ∧ i < flags.length ∧ IsError flags (i - 1)

instance (flags : List Bool) (i : Nat) : Decidable (IsError flags i) :=
  inferInstanceAs (Decidable (_ = _))

instance (flags : List Bool) (i : Nat) : Decidable (IsContext flags i) :=
  inferInstanceAs (Decidable (_ ∧ _))

/-- The positions of error lines, each with the position after it if there is one. -/
def errorPositions : List Bool → List Nat
  | [] => []
  | flag :: flags =>
    (if flag then 0 :: (if flags = [] then [] else [1]) else [])
      ++ (errorPositions flags).map (· + 1)

/-- The positions that are shown, by the flags of the lines. -/
def shownPositions (flags : List Bool) : List Nat :=
  if true ∈ flags then errorPositions flags
  else (List.range flags.length).drop (flags.length - tailLength)

/-- The lines at positions. -/
def pick (lines : List String) (positions : List Nat) : List String :=
  positions.filterMap fun i => lines[i]?

variable {flags : List Bool} {lines : List String} {positions : List Nat}

/-! ### Error lines -/

theorem isContext_one {flag : Bool} :
    IsContext (flag :: flags) 1 ↔ flag = true ∧ flags ≠ [] := by
  simp [IsContext, IsError, List.length_pos_iff, and_comm]

theorem isContext_add_two {flag : Bool} {i : Nat} :
    IsContext (flag :: flags) (i + 2) ↔ IsContext flags (i + 1) := by
  have hlength : i + 2 < flags.length + 1 ↔ i + 1 < flags.length := by omega
  simp [IsContext, IsError, hlength]

/-- How often a position comes up: once for being that of an error line and once for the error
line in front of it. The induction is over the lines; only the pair of the first one is new. -/
theorem count_errorPositions (flags : List Bool) (i : Nat) :
    (errorPositions flags).count i
      = (if IsError flags i then 1 else 0) + if IsContext flags i then 1 else 0 := by
  induction flags generalizing i with
  | nil => simp [errorPositions, IsError, IsContext]
  | cons flag flags ih =>
    have hshift : ∀ j, ((errorPositions flags).map (· + 1)).count (j + 1)
        = (errorPositions flags).count j :=
      List.count_map_of_injective _ _ (add_left_injective 1)
    rw [errorPositions, List.count_append]
    -- Position 0 is the first line's alone, 1 is in its pair and may have one of its own, and
    -- the others are those of the lines behind it, moved on by one.
    match i with
    | 0 =>
      have hzero : ((errorPositions flags).map (· + 1)).count 0 = 0 := by
        rw [List.count_eq_zero]
        simp
      rw [hzero]
      by_cases hflag : flag = true <;> by_cases hflags : flags = [] <;>
        simp [hflag, hflags, IsError, IsContext]
    | 1 =>
      have hfirst : ¬ IsContext flags 0 := fun h => absurd h.1 (Nat.lt_irrefl 0)
      have hsecond : IsError (flag :: flags) 1 ↔ IsError flags 0 := Iff.rfl
      rw [hshift, ih, if_neg hfirst]
      simp only [isContext_one, hsecond]
      by_cases hflag : flag = true <;> by_cases hflags : flags = [] <;>
        simp [hflag, hflags, Nat.add_comm]
    | i + 2 =>
      have herror : IsError (flag :: flags) (i + 2) ↔ IsError flags (i + 1) := Iff.rfl
      rw [hshift, ih]
      simp only [isContext_add_two, herror]
      by_cases hflag : flag = true <;> by_cases hflags : flags = [] <;> simp [hflag, hflags]

/-- The positions come in the order of the log. -/
theorem errorPositions_pairwise (flags : List Bool) :
    (errorPositions flags).Pairwise (· ≤ ·) := by
  induction flags with
  | nil => exact .nil
  | cons flag flags ih =>
    have hrest : ((errorPositions flags).map (· + 1)).Pairwise (· ≤ ·) :=
      List.pairwise_map.mpr (ih.imp Nat.succ_le_succ)
    have hpair : (if flag then 0 :: (if flags = [] then [] else [1]) else []).Pairwise (· ≤ ·) ∧
        ∀ i ∈ (if flag then 0 :: (if flags = [] then [] else [1]) else []), i ≤ 1 := by
      by_cases hflag : flag = true <;> by_cases hflags : flags = [] <;> simp [hflag, hflags]
    refine List.pairwise_append.mpr ⟨hpair.1, hrest, fun i hi j hj => ?_⟩
    obtain ⟨k, -, rfl⟩ := List.mem_map.mp hj
    have hi := hpair.2 i hi
    omega

theorem pick_append (lines : List String) (positions positions' : List Nat) :
    pick lines (positions ++ positions') = pick lines positions ++ pick lines positions' :=
  List.filterMap_append

/-- Lines after the first one are picked by positions shifted by one. -/
theorem pick_cons_succ (line : String) (lines : List String) (positions : List Nat) :
    pick (line :: lines) (positions.map (· + 1)) = pick lines positions := by
  rw [pick, List.filterMap_map]
  rfl

/-- The pairs of an error line and the line after it stand at their positions. -/
theorem errorLines_eq (lines : List String) :
    errorLines lines = pick lines (errorPositions (lines.map isErrorLine)) := by
  induction lines with
  | nil => rfl
  | cons line lines ih =>
    have hfirst : (if isErrorLine line then line :: lines.take 1 else [])
        = pick (line :: lines) (if isErrorLine line then
            0 :: (if lines.map isErrorLine = [] then [] else [1]) else []) := by
      by_cases hline : isErrorLine line = true
      · cases lines <;> simp [hline, pick]
      · simp [hline, pick]
    rw [errorLines, hfirst, ih, List.map_cons, errorPositions, pick_append, pick_cons_succ]

/-- There are error lines when a flag says so. -/
theorem errorPositions_eq_nil_iff : errorPositions flags = [] ↔ true ∉ flags := by
  induction flags with
  | nil => simp [errorPositions]
  | cons flag flags ih => cases flag <;> simp [errorPositions, ih]

theorem pick_eq_nil_iff (h : ∀ i ∈ positions, i < lines.length) :
    pick lines positions = [] ↔ positions = [] := by
  rw [pick, List.filterMap_eq_nil_iff, List.eq_nil_iff_forall_not_mem]
  constructor
  · intro hnone i hi
    have hline := hnone i hi
    rw [List.getElem?_eq_none_iff] at hline
    exact absurd (h i hi) (Nat.not_lt.mpr hline)
  · intro hnone i hi
    exact absurd hi (hnone i)

theorem mem_errorPositions_iff {i : Nat} :
    i ∈ errorPositions flags ↔ IsError flags i ∨ IsContext flags i := by
  rw [← List.count_pos_iff, count_errorPositions]
  by_cases herror : IsError flags i <;> by_cases hcontext : IsContext flags i <;>
    simp [herror, hcontext]

theorem IsError.lt_length {i : Nat} (h : IsError flags i) : i < flags.length :=
  (List.getElem?_eq_some_iff.mp h).1

theorem lt_length_of_mem_errorPositions {i : Nat} (h : i ∈ errorPositions flags) :
    i < flags.length := by
  rcases mem_errorPositions_iff.mp h with herror | hcontext
  · exact herror.lt_length
  · exact hcontext.2.1

/-! ### All that is shown -/

/-- The last lines stand at the last positions. -/
theorem drop_eq_pick (lines : List String) (n : Nat) :
    lines.drop n = pick lines ((List.range lines.length).drop n) := by
  induction lines generalizing n with
  | nil => simp [pick]
  | cons line lines ih =>
    rw [List.length_cons, List.range_succ_eq_map]
    cases n with
    | zero =>
      have hall : pick (line :: lines) (0 :: (List.range lines.length).map (· + 1))
          = line :: pick lines (List.range lines.length) :=
        congrArg (line :: ·) (pick_cons_succ line lines _)
      exact (congrArg (line :: ·) (ih 0)).trans hall.symm
    | succ n =>
      rw [List.drop_succ_cons, List.drop_succ_cons, ← List.map_drop, pick_cons_succ, ih]

/-- **What is shown of a log** depends on which lines are error lines, and shows lines of the log
at their positions. -/
theorem ofLog_eq (log : String) :
    ofLog log = String.intercalate "\n" (pick (Text.lines log)
      (shownPositions ((Text.lines log).map isErrorLine))) := by
  generalize hlines : Text.lines log = lines
  rw [ofLog, hlines, excerpt, shownPositions]
  -- Whether there is an error line is asked of the pairs there and of the flags here.
  by_cases herror : true ∈ lines.map isErrorLine
  · have hne : errorLines lines ≠ [] := by
      rw [errorLines_eq, Ne, pick_eq_nil_iff, errorPositions_eq_nil_iff]
      · exact fun hnot => hnot herror
      · intro i hi
        simpa using lt_length_of_mem_errorPositions hi
    rw [if_pos herror, ← errorLines_eq]
    simp [hne]
  · have hnil : errorLines lines = [] := by
      rw [errorLines_eq, errorPositions_eq_nil_iff.mpr herror]
      rfl
    rw [if_neg herror, List.length_map, ← drop_eq_pick]
    simp [hnil]

/-! ## What belongs to the diagnostics -/

/-- The line at a position belongs to the diagnostics: it is an error line or comes right after
one, or it is one of the last lines of a log without error lines. -/
def Belongs (flags : List Bool) (i : Nat) : Prop :=
  if true ∈ flags then IsError flags i ∨ IsContext flags i
  else i < flags.length ∧ flags.length ≤ i + 40

instance (flags : List Bool) (i : Nat) : Decidable (Belongs flags i) :=
  inferInstanceAs (Decidable (ite _ _ _))

/-- Positions in the order of the log, each line that belongs to the diagnostics once. -/
structure IsExcerpt (flags : List Bool) (positions : List Nat) : Prop where
  increasing : positions.Pairwise (· < ·)
  mem_iff : ∀ i, i ∈ positions ↔ Belongs flags i

theorem not_isError_of_not_mem (h : true ∉ flags) (i : Nat) : ¬ IsError flags i :=
  fun herror => h (List.mem_of_getElem? herror)

theorem lastPositions_pairwise (n k : Nat) : ((List.range n).drop k).Pairwise (· < ·) :=
  List.pairwise_lt_range.sublist (List.drop_sublist k _)

theorem shownPositions_pairwise (flags : List Bool) :
    (shownPositions flags).Pairwise (· ≤ ·) := by
  rw [shownPositions]
  split
  · exact errorPositions_pairwise flags
  · exact (lastPositions_pairwise _ _).imp Nat.le_of_lt

theorem mem_shownPositions_iff {i : Nat} : i ∈ shownPositions flags ↔ Belongs flags i := by
  rw [shownPositions, Belongs]
  split
  · exact mem_errorPositions_iff
  · rw [List.mem_drop_iff_getElem]
    simp only [List.getElem_range, List.length_range, tailLength]
    constructor
    · rintro ⟨k, hk, rfl⟩
      omega
    · rintro ⟨hlength, hlast⟩
      exact ⟨i - (flags.length - 40), by omega, by omega⟩

/-- **How often a line is shown**: once if it belongs to the diagnostics, and twice if it is an
error line right after another. -/
theorem count_shownPositions (flags : List Bool) (i : Nat) :
    (shownPositions flags).count i
      = if Belongs flags i then (if IsError flags i ∧ IsContext flags i then 2 else 1) else 0 := by
  by_cases hflags : true ∈ flags
  · rw [shownPositions, if_pos hflags, count_errorPositions]
    simp only [Belongs, if_pos hflags]
    by_cases herror : IsError flags i <;> by_cases hcontext : IsContext flags i <;>
      simp [herror, hcontext]
  · have hboth : ¬ (IsError flags i ∧ IsContext flags i) :=
      fun h => not_isError_of_not_mem hflags i h.1
    have hnodup : (shownPositions flags).Nodup := by
      rw [shownPositions, if_neg hflags]
      exact (lastPositions_pairwise _ _).imp Nat.ne_of_lt
    rw [hnodup.count, if_neg hboth]
    simp only [mem_shownPositions_iff]

theorem isError_and_isContext_succ {i : Nat} :
    IsError flags i ∧ IsError flags (i + 1) ↔
      IsError flags (i + 1) ∧ IsContext flags (i + 1) := by
  constructor
  · rintro ⟨hfirst, hsecond⟩
    exact ⟨hsecond, Nat.succ_pos i, hsecond.lt_length, hfirst⟩
  · rintro ⟨hsecond, -, -, hfirst⟩
    exact ⟨hfirst, hsecond⟩

/-- Where no error line comes right after another, the positions are those of the excerpt. -/
theorem isExcerpt_shownPositions (h : ∀ i, ¬ (IsError flags i ∧ IsError flags (i + 1))) :
    IsExcerpt flags (shownPositions flags) := by
  have hnodup : (shownPositions flags).Nodup := by
    rw [List.nodup_iff_count_le_one]
    intro i
    have hboth : ¬ (IsError flags i ∧ IsContext flags i) := by
      rintro ⟨herror, hpos, hlength, hbefore⟩
      exact h (i - 1) ⟨hbefore, by rwa [Nat.sub_add_cancel hpos]⟩
    rw [count_shownPositions, if_neg hboth]
    split
    · exact Nat.le_refl 1
    · exact Nat.zero_le 1
  refine ⟨?_, fun i => mem_shownPositions_iff⟩
  exact ((shownPositions_pairwise flags).and hnodup).imp fun h => Nat.lt_of_le_of_ne h.1 h.2

/-! ## Texts -/

/-- The length of joined lines, each counted with the line feed behind it. -/
theorem length_intercalate {texts : List String} (h : texts ≠ []) :
    (String.intercalate "\n" texts).length + 1 = (texts.map fun text => text.length + 1).sum := by
  induction texts with
  | nil => exact absurd rfl h
  | cons text texts ih =>
    by_cases hlast : texts = []
    · simp [hlast]
    · have hfeed : "\n".length = 1 := rfl
      rw [String.intercalate_cons_of_ne_nil hlast, String.length_append, String.length_append,
        hfeed, List.map_cons, List.sum_cons, ← ih hlast]
      omega

/-- Lines that are joined with more lines are another text. -/
theorem intercalate_ne_of_perm {texts texts' extra : List String}
    (h : texts'.Perm (texts ++ extra)) (hne : texts ≠ []) (hextra : extra ≠ []) :
    String.intercalate "\n" texts' ≠ String.intercalate "\n" texts := by
  intro hsame
  have hne' : texts' ≠ [] := by
    rintro rfl
    exact hne (List.append_eq_nil_iff.mp h.nil_eq.symm).1
  have hsum : (texts'.map fun text => text.length + 1).sum
      = (texts.map fun text => text.length + 1).sum
        + (extra.map fun text => text.length + 1).sum := by
    rw [(h.map _).sum_eq, List.map_append, List.sum_append]
  have hpos : 0 < (extra.map fun text => text.length + 1).sum := by
    obtain ⟨text, rest, rfl⟩ := List.exists_cons_of_ne_nil hextra
    rw [List.map_cons, List.sum_cons]
    omega
  rw [← length_intercalate hne, ← length_intercalate hne', hsame] at hsum
  omega

theorem Belongs.lt_length {i : Nat} (h : Belongs flags i) : i < flags.length := by
  rw [Belongs] at h
  split at h
  · exact lt_length_of_mem_errorPositions (mem_errorPositions_iff.mpr h)
  · exact h.1

/-- Where an error line comes right after another, the excerpt leaves out something that is
shown. -/
theorem exists_extra {i : Nat} (hexcerpt : IsExcerpt flags positions) (hi : IsError flags i)
    (hnext : IsError flags (i + 1)) :
    i + 1 ∈ positions ∧
      ∃ extra, extra ≠ [] ∧ (shownPositions flags).Perm (positions ++ extra) := by
  have hboth := isError_and_isContext_succ.mp ⟨hi, hnext⟩
  have hbelongs : Belongs flags (i + 1) := by
    rw [Belongs, if_pos (List.mem_of_getElem? hi)]
    exact .inl hnext
  have hnodup : positions.Nodup := hexcerpt.increasing.imp Nat.ne_of_lt
  have hsubset : positions ⊆ shownPositions flags := by
    intro j hj
    exact mem_shownPositions_iff.mpr ((hexcerpt.mem_iff j).mp hj)
  obtain ⟨shared, hshared, hsublist⟩ := List.subperm_of_subset hnodup hsubset
  obtain ⟨extra, hperm⟩ := hsublist.exists_perm_append
  have hall : (shownPositions flags).Perm (positions ++ extra) :=
    hperm.trans (hshared.append_right extra)
  refine ⟨(hexcerpt.mem_iff (i + 1)).mpr hbelongs, extra, ?_, hall⟩
  rintro rfl
  -- The line stands twice in what is shown and once in the excerpt.
  have htwice : (shownPositions flags).count (i + 1) = 2 := by
    rw [count_shownPositions, if_pos hbelongs, if_pos hboth]
  rw [hall.count_eq, List.append_nil, hnodup.count] at htwice
  split at htwice <;> omega

/-- Where an error line comes right after another, the diagnostics are not the excerpt. -/
theorem ofLog_ne_of_isExcerpt {log : String} {i : Nat}
    (hexcerpt : IsExcerpt ((Text.lines log).map isErrorLine) positions)
    (hi : IsError ((Text.lines log).map isErrorLine) i)
    (hnext : IsError ((Text.lines log).map isErrorLine) (i + 1)) :
    ofLog log ≠ String.intercalate "\n" (pick (Text.lines log) positions) := by
  obtain ⟨hmem, extra, hextra, hperm⟩ := exists_extra hexcerpt hi hnext
  have hvalid : ∀ j ∈ positions ++ extra, j < (Text.lines log).length := by
    intro j hj
    have hbelongs := mem_shownPositions_iff.mp (hperm.mem_iff.mpr hj)
    simpa using hbelongs.lt_length
  have hpick : (pick (Text.lines log) (shownPositions ((Text.lines log).map isErrorLine))).Perm
      (pick (Text.lines log) positions ++ pick (Text.lines log) extra) := by
    rw [← pick_append]
    exact hperm.filterMap _
  rw [ofLog_eq]
  refine intercalate_ne_of_perm hpick ?_ ?_
  · rw [Ne, pick_eq_nil_iff fun j hj => hvalid j (List.mem_append_left _ hj)]
    exact List.ne_nil_of_mem hmem
  · rw [Ne, pick_eq_nil_iff fun j hj => hvalid j (List.mem_append_right _ hj)]
    exact hextra

/-- **When the diagnostics are an excerpt.** The diagnostics of a log are its lines at positions
in the order of the log. Each line that belongs to them is shown, and no other: the error lines
and the lines after them, or the last forty if there is no error line. A line is shown twice if it
is an error line right after another, and once otherwise. So the text is that of the lines
each shown once, in strict order, exactly when no error line comes right after another. -/
theorem diagnostics_are_excerpt_iff (log : String) :
    let lines := Text.lines log
    let flags := lines.map isErrorLine
    (ofLog log = String.intercalate "\n" (pick lines (shownPositions flags)) ∧
      (shownPositions flags).Pairwise (· ≤ ·) ∧
      ∀ i, (shownPositions flags).count i
        = if Belongs flags i then (if IsError flags i ∧ IsContext flags i then 2 else 1) else 0) ∧
    ((∃ positions, IsExcerpt flags positions ∧
        ofLog log = String.intercalate "\n" (pick lines positions)) ↔
      ∀ i, ¬ (IsError flags i ∧ IsError flags (i + 1))) := by
  intro lines flags
  refine ⟨⟨ofLog_eq log, shownPositions_pairwise flags, count_shownPositions flags⟩, ?_⟩
  constructor
  · rintro ⟨positions, hexcerpt, htext⟩ i ⟨hi, hnext⟩
    exact ofLog_ne_of_isExcerpt hexcerpt hi hnext htext
  · intro hapart
    exact ⟨shownPositions flags, isExcerpt_shownPositions hapart, ofLog_eq log⟩

/-- Error lines that stand apart are shown once, also when the log ends with one. -/
theorem errors_apart_are_an_excerpt :
    let log := "! A\nx\ny\n! B"
    ofLog log = "! A\nx\n! B" ∧
      ∃ positions, IsExcerpt ((Text.lines log).map isErrorLine) positions ∧
        ofLog log = String.intercalate "\n" (pick (Text.lines log) positions) := by
  intro log
  have hflags : (Text.lines log).map isErrorLine = [true, false, false, true] := by decide
  have hapart : ∀ i < 3, ¬ (IsError [true, false, false, true] i ∧
      IsError [true, false, false, true] (i + 1)) := by decide
  refine ⟨by decide, (diagnostics_are_excerpt_iff log).2.mpr fun i hi => ?_⟩
  rw [hflags] at hi
  have hlast : i + 1 < 4 := hi.2.lt_length
  exact hapart i (by omega) hi

/-- An error line right after another is shown twice, and no excerpt of the log is the text. -/
theorem adjacent_error_is_shown_twice :
    let log := "! A\n! B\nc\n"
    let flags := (Text.lines log).map isErrorLine
    ofLog log = "! A\n! B\n! B\nc" ∧ IsExcerpt flags [0, 1, 2] ∧
      String.intercalate "\n" (pick (Text.lines log) [0, 1, 2]) = "! A\n! B\nc" ∧
      ¬ ∃ positions, IsExcerpt flags positions ∧
        ofLog log = String.intercalate "\n" (pick (Text.lines log) positions) := by
  intro log flags
  have hflags : flags = [true, true, false] := by decide
  refine ⟨by decide, ⟨by decide, fun i => ?_⟩, by decide, ?_⟩
  · rw [hflags]
    have hsmall : ∀ i < 3, i ∈ [0, 1, 2] ↔ Belongs [true, true, false] i := by decide
    by_cases hi : i < 3
    · exact hsmall i hi
    · refine iff_of_false (fun hmem => ?_) fun hbelongs => hi hbelongs.lt_length
      simp only [List.mem_cons, List.not_mem_nil, or_false] at hmem
      omega
  · rintro ⟨positions, hexcerpt, htext⟩
    have hfirst : IsError flags 0 := by decide
    have hsecond : IsError flags 1 := by decide
    exact ofLog_ne_of_isExcerpt hexcerpt hfirst hsecond htext

end Galley.Diagnostics
