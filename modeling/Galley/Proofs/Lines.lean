/-
`Proofs/Lines.lean` -- a text and what stands between its separators.

Tables and lists are written line by line, and a row of a table cell by cell. Each time
texts are joined by a separator, and they can be read back from the joined text as long as
none of them contains it. Splitting at one character is all that is needed for that, also
where more than one character is written between two texts.
-/
import Galley.Tex

set_option autoImplicit false

namespace Galley

namespace Tex

/-- What stands between the occurrences of a character. -/
def pieces (separator : Char) (s : String) : List String :=
  (s.toList.splitOn separator).map String.ofList

/-- The lines of a fragment. -/
def lines (fragment : Fragment) : List String := pieces '\n' fragment

/-- Texts that are joined by a character and do not contain it are its pieces. -/
theorem pieces_intercalate {separator : Char} {texts : List String} (hne : texts ≠ [])
    (h : ∀ text ∈ texts, separator ∉ text.toList) :
    pieces separator (String.intercalate (String.singleton separator) texts) = texts := by
  have hsplit : List.splitOn separator ([separator].intercalate (texts.map String.toList))
      = texts.map String.toList := by
    apply List.splitOn_intercalate
    · simpa using h
    · simpa using hne
  rw [pieces, String.toList_intercalate, String.toList_singleton, hsplit, List.map_map]
  simp [Function.comp_def]

/-- Lines that each end in a line feed, in front of others, are lines among them. -/
theorem join_lines (texts : List String) {rest : List String} (hrest : rest ≠ []) :
    String.join (texts.map fun text => text ++ "\n") ++ String.intercalate "\n" rest
      = String.intercalate "\n" (texts ++ rest) := by
  induction texts with
  | nil => simp
  | cons text texts ih =>
    rw [List.map_cons, String.join_cons, String.append_assoc, ih, List.cons_append,
      String.intercalate_cons_of_ne_nil (by simp [hrest])]

/-- A character of joined texts comes from one of them or from the separator. -/
theorem not_mem_intercalate {c : Char} {separator : String} (hseparator : c ∉ separator.toList)
    {texts : List String} (h : ∀ text ∈ texts, c ∉ text.toList) :
    c ∉ (String.intercalate separator texts).toList := by
  induction texts with
  | nil => simp
  | cons text texts ih =>
    obtain ⟨htext, htexts⟩ := List.forall_mem_cons.mp h
    by_cases hlast : texts = []
    · simpa [hlast] using htext
    · rw [String.intercalate_cons_of_ne_nil hlast]
      simp only [String.toList_append, List.mem_append, not_or]
      exact ⟨⟨htext, hseparator⟩, ih htexts⟩

/-- A text in a fixed frame can be told from another. -/
theorem framed_inj {before after s t : String}
    (h : before ++ s ++ after = before ++ t ++ after) : s = t := by
  simpa using h

end Tex

end Galley
