/-
`Proofs/Braces.lean` -- texts with balanced braces.

A text is balanced when none of its prefixes closes more groups than it opens and all of
it closes as many as it opens. That is a statement about every prefix, and no way to put
two texts together. What is put together is the depth: how many groups are open after a
text that begins at some depth, or nothing once a group is closed that was never opened.
A text is balanced exactly when it leads from depth zero to depth zero, and then it leads
from every depth back to it, so it may stand anywhere in a text without being noticed.

A style shows why the balance of the pieces is not enough. Its opening text and its
closing text are balanced together and not each alone, and something is set between
them. Cleaning and trimming change a text and not its depth: what they put in and take
out is balanced, character for character.
-/
import Galley.Proofs.Cleaning
import Galley.Tex
import Galley.Text.Blank
import Mathlib.Data.List.DropRight

set_option autoImplicit false

namespace Galley.Tex

/-! ## Balanced texts -/

/-- No prefix of the text closes more groups than it opens, and the text closes as many
as it opens. Every brace counts, also one after a backslash. -/
def Balanced (s : String) : Prop :=
  (∀ p : List Char, p <+: s.toList → p.count '\x7d' ≤ p.count '\x7b') ∧
    s.toList.count '\x7d' = s.toList.count '\x7b'

/-- The text has no brace in it. -/
def Braceless (s : String) : Prop := ∀ c ∈ s.toList, c ≠ '\x7b' ∧ c ≠ '\x7d'

instance (s : String) : Decidable (Braceless s) :=
  -- By the characters of the text; a search among all characters would decide it too.
  List.decidableBAll (fun c => c ≠ '\x7b' ∧ c ≠ '\x7d') s.toList

/-- A character with a property that neither brace has is no brace. -/
theorem ne_brace {p : Char → Bool} (hopen : p '\x7b' = false) (hclose : p '\x7d' = false)
    {c : Char} (h : p c = true) : c ≠ '\x7b' ∧ c ≠ '\x7d' := by
  constructor
  · rintro rfl
    rw [hopen] at h
    cases h
  · rintro rfl
    rw [hclose] at h
    cases h

/-! ## The depth of open groups -/

/-- The depth after one more character; a group that is not open cannot be closed. -/
def braceStep (depth : Nat) (c : Char) : Option Nat :=
  if c = '\x7b' then some (depth + 1)
  else if c = '\x7d' then if depth = 0 then none else some (depth - 1)
  else some depth

/-- The depth after characters that begin at a depth. -/
def scan (depth : Nat) (cs : List Char) : Option Nat := cs.foldlM braceStep depth

/-- The depth after a text that begins at a depth. -/
def depth (start : Nat) (s : String) : Option Nat := scan start s.toList

section Scan

variable {cs : List Char} {n m : Nat}

theorem scan_nil (n : Nat) : scan n [] = some n := rfl

theorem scan_cons (n : Nat) (c : Char) (cs : List Char) :
    scan n (c :: cs) = (braceStep n c).bind fun m => scan m cs := rfl

theorem scan_singleton (n : Nat) (c : Char) : scan n [c] = braceStep n c :=
  Option.bind_fun_some _

theorem scan_append (n : Nat) (cs ds : List Char) :
    scan n (cs ++ ds) = (scan n cs).bind fun m => scan m ds :=
  List.foldlM_append

/-- **The depth counts braces.** Characters lead from one depth to another when no prefix
of them closes more groups than are open by then, and the difference of the depths is that
of the braces. The induction is on the characters, at every depth. -/
theorem scan_eq_some_iff :
    scan n cs = some m ↔
      (∀ p : List Char, p <+: cs → p.count '\x7d' ≤ n + p.count '\x7b') ∧
        m + cs.count '\x7d' = n + cs.count '\x7b' := by
  induction cs generalizing n with
  | nil =>
    simp only [scan_nil, Option.some.injEq, List.prefix_nil, forall_eq, List.count_nil]
    omega
  | cons c cs ih =>
    -- A prefix is empty, or the first character and a prefix of the rest.
    have hprefix : (∀ p : List Char, p <+: c :: cs → p.count '\x7d' ≤ n + p.count '\x7b') ↔
        ∀ p : List Char, p <+: cs → (c :: p).count '\x7d' ≤ n + (c :: p).count '\x7b' := by
      constructor
      · exact fun h p hp => h (c :: p) (List.cons_prefix_cons.mpr ⟨rfl, hp⟩)
      · intro h p hp
        rcases List.prefix_cons_iff.mp hp with rfl | ⟨q, rfl, hq⟩
        · simp
        · exact h q hq
    rw [scan_cons, hprefix, braceStep]
    by_cases hopen : c = '\x7b'
    · have hne : c ≠ '\x7d' := by
        rw [hopen]
        decide
      have hshift : ∀ k : Nat, n + 1 + k = n + (k + 1) := fun k => by omega
      rw [if_pos hopen, Option.bind_some, ih]
      simp only [List.count_cons_of_ne hne]
      simp only [hopen, List.count_cons_self, hshift]
    · by_cases hclose : c = '\x7d'
      · rw [if_neg hopen, if_pos hclose]
        simp only [hclose, List.count_cons_self, List.count_cons_of_ne (hclose ▸ hopen)]
        by_cases hn : n = 0
        · -- Nothing is open, and already the empty prefix of the rest tells.
          rw [if_pos hn]
          refine iff_of_false nofun fun h => ?_
          have hempty := h.1 [] List.nil_prefix
          simp only [List.count_nil] at hempty
          omega
        · rw [if_neg hn, Option.bind_some, ih]
          have hshift : ∀ a b : Nat, a ≤ n - 1 + b ↔ a + 1 ≤ n + b := fun a b => by omega
          simp only [hshift]
          refine and_congr_right fun _ => ?_
          omega
      · simp only [if_neg hopen, if_neg hclose, Option.bind_some, ih,
          List.count_cons_of_ne hopen, List.count_cons_of_ne hclose]

theorem braceStep_of_ne {c : Char} (h : c ≠ '\x7b' ∧ c ≠ '\x7d') (n : Nat) :
    braceStep n c = some n := by
  rw [braceStep, if_neg h.1, if_neg h.2]

theorem scan_cons_of_ne {c : Char} (h : c ≠ '\x7b' ∧ c ≠ '\x7d') (n : Nat) (cs : List Char) :
    scan n (c :: cs) = scan n cs := by
  rw [scan_cons, braceStep_of_ne h, Option.bind_some]

/-- Characters that are no braces leave the depth as it is. -/
theorem scan_of_braceless (h : ∀ c ∈ cs, c ≠ '\x7b' ∧ c ≠ '\x7d') (n : Nat) :
    scan n cs = some n := by
  induction cs with
  | nil => rfl
  | cons c cs ih =>
    obtain ⟨hc, hcs⟩ := List.forall_mem_cons.mp h
    rw [scan_cons_of_ne hc, ih hcs]

/-- Characters can be replaced by others that lead to the same depth. -/
theorem scan_flatMap {f : Char → List Char} (hf : ∀ c n, scan n (f c) = braceStep n c) (n : Nat)
    (cs : List Char) : scan n (cs.flatMap f) = scan n cs := by
  induction cs generalizing n with
  | nil => rfl
  | cons c cs ih =>
    rw [List.flatMap_cons, scan_append, hf, scan_cons]
    simp only [ih]

end Scan

variable {s t : String}

/-! ## Balance by depth -/

theorem balanced_iff : Balanced s ↔ depth 0 s = some 0 := by
  rw [depth, scan_eq_some_iff, Balanced]
  simp only [Nat.zero_add]

instance : DecidablePred Balanced := fun _ => decidable_of_iff _ balanced_iff.symm

/-- A balanced text leads from every depth back to it. -/
theorem Balanced.depth_eq (h : Balanced s) (n : Nat) : depth n s = some n :=
  scan_eq_some_iff.mpr
    ⟨fun p hp => Nat.le_trans (h.1 p hp) (Nat.le_add_left _ n), by rw [h.2]⟩

@[simp] theorem depth_append (n : Nat) (s t : String) :
    depth n (s ++ t) = (depth n s).bind fun m => depth m t := by
  rw [depth, String.toList_append, scan_append]
  rfl

@[simp] theorem depth_opening (n : Nat) : depth n "\x7b" = some (n + 1) := rfl

@[simp] theorem depth_closing (n : Nat) : depth (n + 1) "\x7d" = some n := rfl

@[simp] theorem depth_of_braceless (h : Braceless s) (n : Nat) : depth n s = some n :=
  scan_of_braceless h n

theorem Braceless.balanced (h : Braceless s) : Balanced s :=
  balanced_iff.mpr (depth_of_braceless h 0)

theorem Braceless.append (hs : Braceless s) (ht : Braceless t) : Braceless (s ++ t) := by
  intro c hc
  rw [String.toList_append] at hc
  exact (List.mem_append.mp hc).elim (hs c) (ht c)

/-! ## Texts put together -/

theorem Balanced.append (hs : Balanced s) (ht : Balanced t) : Balanced (s ++ t) := by
  rw [balanced_iff, depth_append, hs.depth_eq, Option.bind_some, ht.depth_eq]

/-- A balanced text may stand anywhere in a balanced text. -/
theorem Balanced.insert {u : String} (h : Balanced (s ++ t)) (hu : Balanced u) :
    Balanced (s ++ u ++ t) := by
  rw [balanced_iff, depth_append] at h
  rw [balanced_iff, depth_append, depth_append]
  cases hs : depth 0 s with
  | none =>
    rw [hs] at h
    cases h
  | some k =>
    -- The text begins and ends at the depth that is reached before it.
    rw [hs] at h
    rw [Option.bind_some, hu.depth_eq]
    exact h

theorem Balanced.group (h : Balanced s) : Balanced (group s) :=
  Balanced.insert (s := "\x7b") (t := "\x7d") (by decide) h

theorem Balanced.bracket (h : Balanced s) : Balanced (bracket s) :=
  Balanced.insert (s := "[") (t := "]") (by decide) h

theorem balanced_control {name : String} (h : Braceless name) : Balanced (control name) :=
  have hbackslash : Balanced "\\" := by decide
  hbackslash.append h.balanced

theorem balanced_join {texts : List String} (h : ∀ text ∈ texts, Balanced text) :
    Balanced (String.join texts) := by
  induction texts with
  | nil => decide
  | cons text texts ih =>
    obtain ⟨htext, htexts⟩ := List.forall_mem_cons.mp h
    rw [String.join_cons]
    exact htext.append (ih htexts)

theorem balanced_intercalate {separator : String} (hseparator : Balanced separator)
    {texts : List String} (h : ∀ text ∈ texts, Balanced text) :
    Balanced (String.intercalate separator texts) := by
  induction texts with
  | nil =>
    have hempty : Balanced "" := by decide
    exact hempty
  | cons text texts ih =>
    obtain ⟨htext, htexts⟩ := List.forall_mem_cons.mp h
    cases texts with
    | nil => exact htext
    | cons next texts =>
      rw [String.intercalate_cons_cons]
      exact (htext.append hseparator).append (ih htexts)

/-- A control sequence with balanced arguments is balanced. -/
theorem balanced_command {name : String} (hname : Braceless name) {arguments : List String}
    (h : ∀ argument ∈ arguments, Balanced argument) : Balanced (command name arguments) := by
  refine (balanced_control hname).append (balanced_join fun text htext => ?_)
  obtain ⟨argument, hargument, rfl⟩ := List.mem_map.mp htext
  exact (h argument hargument).group

/-! ## Texts that are worked on -/

/-- What cleaning makes of a character leads to the depth that the character leads to: no brace
is changed, and the groups behind the two words are empty. -/
theorem scan_cleanChar (c : Char) (n : Nat) : scan n (Text.cleanChar c) = braceStep n c := by
  have hword : ∀ word : String, Balanced word → c ≠ '\x7b' ∧ c ≠ '\x7d' →
      scan n word.toList = braceStep n c := by
    intro word hword hc
    rw [braceStep_of_ne hc]
    exact hword.depth_eq n
  rw [Text.cleanChar]
  split
  · next hcaret => exact hword _ (by decide) (by rw [hcaret]; decide)
  · split
    · next htilde => exact hword _ (by decide) (by rw [htilde]; decide)
    · split
      · next hbackslash => exact hword "" (by decide) (by rw [hbackslash]; decide)
      · exact scan_singleton n c

/-- Cleaning leaves the depth as it is. -/
theorem scan_cleanChars (n : Nat) (cs : List Char) : scan n (Text.cleanChars cs) = scan n cs := by
  rw [Text.cleanChars_eq_flatMap]
  exact scan_flatMap scan_cleanChar n cs

theorem Balanced.clean (h : Balanced s) : Balanced (Text.clean s) := by
  rw [balanced_iff, depth, Text.clean, String.toList_ofList, scan_cleanChars]
  exact balanced_iff.mp h

/-- Blanks at the end of a text do not matter for its depth. -/
theorem scan_rdropWhile {p : Char → Bool} (hp : ∀ c, p c = true → c ≠ '\x7b' ∧ c ≠ '\x7d')
    (n : Nat) (cs : List Char) : scan n (cs.rdropWhile p) = scan n cs := by
  induction cs using List.reverseRecOn with
  | nil => rfl
  | append_singleton cs c ih =>
    by_cases hc : p c = true
    · have hlast : ∀ k, scan k [c] = some k :=
        scan_of_braceless fun d hd => hp d (List.mem_singleton.mp hd ▸ hc)
      rw [List.rdropWhile_concat_pos p cs c hc, ih, scan_append]
      simp only [hlast, Option.bind_fun_some]
    · rw [List.rdropWhile_concat_neg p cs c hc]

/-- Nor do blanks in front of it. -/
theorem scan_dropWhile {p : Char → Bool} (hp : ∀ c, p c = true → c ≠ '\x7b' ∧ c ≠ '\x7d')
    (n : Nat) (cs : List Char) : scan n (cs.dropWhile p) = scan n cs := by
  induction cs with
  | nil => rfl
  | cons c cs ih =>
    by_cases hc : p c = true
    · rw [List.dropWhile_cons_of_pos hc, ih, scan_cons_of_ne (hp c hc)]
    · rw [List.dropWhile_cons_of_neg hc]

/-- Trimming takes away blanks, and no blank is a brace. -/
theorem Balanced.trim (h : Balanced s) : Balanced (Text.trim s) := by
  have hblank : ∀ c, Text.isBlank c = true → c ≠ '\x7b' ∧ c ≠ '\x7d' :=
    fun c hc => ne_brace (by decide) (by decide) hc
  have htrim : Text.trimBlanks s.toList
      = (s.toList.dropWhile Text.isBlank).rdropWhile Text.isBlank := rfl
  rw [balanced_iff, depth, Text.trim, String.toList_ofList, htrim, scan_rdropWhile hblank,
    scan_dropWhile hblank]
  exact balanced_iff.mp h

end Galley.Tex
