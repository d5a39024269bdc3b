/-
`Proofs/JsonLiterals.lean` -- the numbers that a configuration is written with.

There are two of them. A time limit is an integer literal, and as long as it fits 64 bits no
digit of it is dropped. A scale is the shortest decimal of a binary value. Which digits stand in
it is for the search to say; that they read back is what is asked of it here, and no more than
the shape of the number has to be added for it to be spelt by the grammar. The one thing that
the shape does not say, that there is no needless zero in front, is known since the text is read.
-/
import Galley.Json.Decoding
import Galley.Proofs.DecimalText
import Galley.Proofs.JsonText

set_option autoImplicit false

namespace Galley.Json

open Decimal

/-! ## Integer literals -/

theorem le_ofDigitChars (ds : List Char) (n : Nat) : n ≤ Nat.ofDigitChars 10 ds n := by
  induction ds generalizing n with
  | nil => exact Nat.le_refl n
  | cons d ds ih =>
    have hstep : n ≤ 10 * n + (d.toNat - '0'.toNat) := by omega
    rw [Nat.ofDigitChars_cons]
    exact Nat.le_trans hstep (ih _)

/-- Digits of a value below `2 ^ 64` are all taken: what the first of them make is no larger
than what all of them make. -/
theorem takeDigits_of_lt {ds : List Char} {n : Nat} (h : Nat.ofDigitChars 10 ds n < wordLimit) :
    takeDigits n ds = (Nat.ofDigitChars 10 ds n, []) := by
  induction ds generalizing n with
  | nil => rfl
  | cons d ds ih =>
    rw [Nat.ofDigitChars_cons, Nat.mul_comm] at h
    have hnext := Nat.lt_of_le_of_lt (le_ofDigitChars ds _) h
    rw [takeDigits, Nat.ofDigitChars_cons, Nat.mul_comm 10 n]
    exact (if_pos hnext).trans (ih h)

theorem asNatural?_natural {n : Nat} (h : n < wordLimit) : asNatural? (natural n) = some n := by
  have hvalue : Nat.ofDigitChars 10 (Nat.toDigits 10 n) 0 = n := Nat.ofDigitChars_ten_toDigits
  have htake : takeDigits 0 (Nat.toDigits 10 n) = (n, []) := by
    rw [takeDigits_of_lt (by rwa [hvalue]), hvalue]
  simp [asNatural?, natural, Number.quantity, htake, Number.isLiteral]

/-- Positive numbers do not start with a zero. -/
theorem head?_toDigits_ne {n : Nat} (h : 0 < n) : (Nat.toDigits 10 n).head? ≠ some '0' := by
  induction n using Nat.strongRecOn with
  | ind n ih =>
    by_cases hlt : n < 10
    · have hdigit : ∀ m < 10, 0 < m → [Nat.digitChar m].head? ≠ some '0' := by decide
      rw [Nat.toDigits_of_lt_base hlt]
      exact hdigit n hlt h
    · obtain ⟨d, ds, hds⟩ := List.exists_cons_of_ne_nil
        (Nat.toDigits_ne_nil (n := n / 10) (b := 10))
      have hfirst := ih (n / 10) (by omega) (by omega)
      rw [hds] at hfirst
      rw [Nat.toDigits_of_base_le (by omega) (by omega), hds]
      exact hfirst

theorem wellSpelt_natural (n : Nat) : (natural n).WellSpelt := by
  refine .number ⟨Nat.toDigits_ne_nil, ?_, ?_, nofun⟩
  · intro c hc
    rw [List.append_nil] at hc
    exact Nat.isDigit_of_mem_toDigits (by omega) (by omega) hc
  · intro hzero
    rcases Nat.eq_zero_or_pos n with rfl | hpos
    · rfl
    · exact absurd hzero (head?_toDigits_ne hpos)

/-! ## The number of a binary value -/

namespace Number

/-- There are digits before the point, and there is nothing but digits on both sides of it and
in the exponent. The grammar asks for one thing more, that there is no needless zero in front. -/
structure InDigits (n : Number) : Prop where
  whole : n.whole ≠ []
  digits : ∀ c ∈ n.whole ++ n.fraction, c.isDigit = true
  exponent : ∀ e ∈ n.exponent, e.digits ≠ [] ∧ ∀ c ∈ e.digits, c.isDigit = true

/-- A number is in digits wherever its point is put. -/
theorem inDigits_ofDecimal (negative : Bool) (digits : Nat) (power : Int) :
    (ofDecimal negative digits power).InDigits := by
  have hne : natDigits digits ≠ [] := Nat.toDigits_ne_nil
  have hdigits := isDigit_natDigits digits
  have htake (k : Nat) (hk : 0 < k) : (natDigits digits).take k ≠ [] := by
    rw [Ne, List.take_eq_nil_iff, not_or]
    exact ⟨Nat.ne_of_gt hk, hne⟩
  rw [ofDecimal]
  split
  · refine ⟨htake 1 Nat.one_pos, ?_, ?_⟩
    · rwa [List.take_append_drop]
    · rintro e ⟨⟩
      exact ⟨Nat.toDigits_ne_nil, isDigit_natDigits _⟩
  · split
    · refine ⟨List.append_ne_nil_of_left_ne_nil hne _, ?_, nofun⟩
      simp only [List.forall_mem_append]
      exact ⟨⟨hdigits, isDigit_replicate _⟩, isDigit_replicate 1⟩
    · split
      · next hplaces =>
        refine ⟨htake _ (by omega), ?_, nofun⟩
        rwa [List.take_append_drop]
      · refine ⟨List.cons_ne_nil _ _, ?_, nofun⟩
        simp only [List.forall_mem_append]
        exact ⟨isDigit_replicate 1, isDigit_replicate _, hdigits⟩

theorem inDigits_of_mem_ofBinary {x : Binary single} {n : Number} (h : n ∈ ofBinary x) :
    n.InDigits := by
  cases x with
  | nan => cases h
  | infinite negative => cases h
  | finite negative mantissa exponent =>
    obtain rfl := Option.some.inj h
    exact inDigits_ofDecimal negative _ _

example : [Binary.ofNat false 1, .ofNat true 0, .ofNat false (10 ^ 20)].map
    (fun x => (ofBinary x).map spell) = [some "1.0", some "-0.0", some "1e20"] := by
  decide +kernel

/-- A text with a needless zero in front is not read. -/
theorem InDigits.leading {n : Number} (hn : n.InDigits) {j : Json}
    (h : parse? n.spell = some j) : n.whole.head? = some '0' → n.whole = ['0'] := by
  intro hzero
  obtain ⟨zero, others, hwhole⟩ : ∃ zero others, n.whole = zero :: others :=
    List.exists_cons_of_ne_nil (by
      intro hnil
      rw [hnil] at hzero
      cases hzero)
  obtain rfl : zero = '0' := by
    rw [hwhole] at hzero
    exact Option.some.inj hzero
  cases others with
  | nil => exact hwhole
  | cons d others =>
    have hd : d.isDigit = true := hn.digits d (by simp [hwhole])
    -- The reader stops at the second digit, with or without a sign before the first one.
    have hfails : readNumber n.spell.toList = none := by
      rw [toList_spell, hwhole]
      cases n.negative <;> simp [readNumber, readWhole, hd]
    have hnone : parse? n.spell = none := by
      obtain ⟨c, cs, hcs, hc⟩ :
          ∃ c cs, n.spell.toList = c :: cs ∧ (c = '-' ∨ c.isDigit = true) := by
        rw [toList_spell, hwhole]
        cases n.negative with
        | true => exact ⟨'-', _, rfl, .inl rfl⟩
        | false => exact ⟨'0', _, rfl, .inr (by decide)⟩
      rw [hcs] at hfails
      rw [parse?, hcs, readValue_number hc, hfails]
      rfl
    rw [hnone] at h
    cases h

end Number

/-! ## Scales that read back -/

/-- The decimal text of a value reads back as the value. -/
def ReadsBack (x : Binary single) : Prop :=
  ∀ n ∈ Number.ofBinary x, (parse? n.spell).bind asSingle? = some x

instance (x : Binary single) : Decidable (ReadsBack x) :=
  inferInstanceAs (Decidable (∀ n ∈ Number.ofBinary x, _))

variable {x : Binary single} {n : Number}

theorem ReadsBack.wellSpelt (h : ReadsBack x) (hn : n ∈ Number.ofBinary x) : n.WellSpelt := by
  obtain ⟨j, hread, -⟩ := Option.bind_eq_some_iff.mp (h n hn)
  have hshape := Number.inDigits_of_mem_ofBinary hn
  exact ⟨hshape.whole, hshape.digits, hshape.leading hread, hshape.exponent⟩

theorem ReadsBack.asSingle?_number (h : ReadsBack x) (hn : n ∈ Number.ofBinary x) :
    asSingle? (.number n) = some x := by
  have htext := parse?_compact (.number (h.wellSpelt hn))
  rw [compact] at htext
  have hread := h n hn
  rwa [htext, Option.bind_some] at hread

theorem exists_number (h : x.isFinite = true) : ∃ n, Number.ofBinary x = some n := by
  cases x with
  | nan => cases h
  | infinite negative => cases h
  | finite negative mantissa exponent => exact ⟨_, rfl⟩

end Galley.Json
