/-
`Proofs/DecimalText.lean` -- the shape of a number that is written out.

Which digits are written for a binary value is the outcome of a search, and nothing is said
of it here. Whatever it finds, zeros are put behind the digits or in front of them, and at
most one point goes among them: a sign, digits, and if there are more of them a point and
those.
-/
import Galley.Decimal.Shortest
import Mathlib.Tactic.Set

set_option autoImplicit false

namespace Galley.Decimal

theorem isDigit_natDigits (n : Nat) : ∀ c ∈ natDigits n, c.isDigit = true := fun _ hc =>
  Nat.isDigit_of_mem_toDigits (by omega) (by omega) hc

theorem isDigit_replicate (k : Nat) : ∀ c ∈ List.replicate k '0', c.isDigit = true := by
  intro c hc
  rw [List.eq_of_mem_replicate hc]
  decide

/-- Digits, and if there are more of them a point and those. -/
def pointed (whole fraction : List Char) : List Char :=
  whole ++ if fraction.isEmpty then [] else '.' :: fraction

theorem toList_positional (digits : Nat) (power : Int) :
    ∃ whole fraction, (positional digits power).toList = pointed whole fraction ∧
      whole ≠ [] ∧ ∀ c ∈ whole ++ fraction, c.isDigit = true := by
  have hdigit (k : Nat) : ∀ c ∈ List.replicate k '0' ++ natDigits digits, c.isDigit = true :=
    List.forall_mem_append.mpr ⟨isDigit_replicate k, isDigit_natDigits digits⟩
  rw [positional]
  by_cases hpower : 0 ≤ power
  · refine ⟨natDigits digits ++ List.replicate power.toNat '0', [], ?_, ?_, ?_⟩
    · rw [if_pos hpower, String.toList_ofList, pointed, List.isEmpty_nil, if_pos rfl,
        List.append_nil]
    · exact List.append_ne_nil_of_left_ne_nil Nat.toDigits_ne_nil _
    · intro c hc
      rw [List.append_nil] at hc
      exact hdigit power.toNat c (List.mem_append.mpr (List.mem_append.mp hc).symm)
  · set places := (-power).toNat with hplaces
    set padded := List.replicate (places + 1 - (natDigits digits).length) '0'
      ++ natDigits digits with hpadded
    -- There are more digits than places behind the point, and there is such a place.
    have hlength : places < padded.length := by
      rw [hpadded, List.length_append, List.length_replicate]
      omega
    have hpositive : 0 < places := by omega
    refine ⟨padded.take (padded.length - places), padded.drop (padded.length - places), ?_, ?_, ?_⟩
    · have hmore : (padded.drop (padded.length - places)).isEmpty = false := by
        rw [List.isEmpty_eq_false_iff, ← List.length_pos_iff, List.length_drop]
        omega
      rw [if_neg hpower, pointed, hmore]
      exact String.toList_ofList
    · rw [← List.length_pos_iff, List.length_take]
      omega
    · rw [List.take_append_drop]
      exact hdigit _

/-- **The shape.** A finite value is written with a sign, digits, and if there are more of them
a point and those. -/
theorem toList_text (f : Format) (negative : Bool) (mantissa : Nat) (exponent : Int) :
    ∃ whole fraction, (Binary.text (.finite negative mantissa exponent : Binary f)).toList
        = (if negative then ['-'] else []) ++ pointed whole fraction ∧
      whole ≠ [] ∧ ∀ c ∈ whole ++ fraction, c.isDigit = true := by
  have hsign : (if negative then "-" else "").toList = if negative then ['-'] else [] := by
    cases negative <;> rfl
  rw [Binary.text]
  by_cases hzero : mantissa = 0
  · refine ⟨['0'], [], ?_, List.cons_ne_nil _ _, List.forall_mem_singleton.mpr rfl⟩
    rw [if_pos hzero, String.toList_append, hsign]
    rfl
  · obtain ⟨whole, fraction, htext, hshape⟩ := toList_positional
      (shortest f mantissa exponent).1 (shortest f mantissa exponent).2
    refine ⟨whole, fraction, ?_, hshape⟩
    rw [if_neg hzero, String.toList_append, hsign, htext]

end Galley.Decimal
