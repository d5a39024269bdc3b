/-
`Proofs/ByteOrder.lean` -- texts in the order of their bytes.

A registry keeps its names in the order of their characters, and what is asked of it is the
order of their UTF-8 bytes. These are one order. A character with more bytes has the greater
first byte, and of two characters with as many bytes the first byte that differs tells which
is greater. So two characters are told apart before the shorter one ends, whatever stands
behind them, and two texts compare like the first characters in which they differ.
-/
import Galley.Text.Utf8
import Mathlib.Data.String.Basic

set_option autoImplicit false

namespace Galley.Text.Utf8

/-! ## Characters -/

/-- A first byte is compared as the number that it is. -/
theorem ofNat_cons_lt_iff {m n : Nat} (hm : m < 256) (hn : n < 256) {s t : List UInt8} :
    UInt8.ofNat m :: s < UInt8.ofNat n :: t ↔ m < n ∨ m = n ∧ s < t := by
  rw [List.cons_lt_cons_iff, UInt8.lt_iff_toNat_lt, ← UInt8.toNat_inj,
    UInt8.toNat_ofNat_of_lt' hm, UInt8.toNat_ofNat_of_lt' hn]

/-- Numbers are compared by their digits to the base 64, the highest first. -/
theorem digits_lt {m n : Nat} (h : m < n) :
    m / 262144 < n / 262144 ∨ m / 262144 = n / 262144 ∧
      (m / 4096 % 64 < n / 4096 % 64 ∨ m / 4096 % 64 = n / 4096 % 64 ∧
        (m / 64 % 64 < n / 64 % 64 ∨ m / 64 % 64 = n / 64 % 64 ∧ m % 64 < n % 64)) := by
  have hlast {a b : Nat} (h : a < b) : a / 64 < b / 64 ∨ a / 64 = b / 64 ∧ a % 64 < b % 64 := by
    omega
  have hthird := @hlast m n
  have hsecond := @hlast (m / 64) (n / 64)
  have hfirst := @hlast (m / 64 / 64) (n / 64 / 64)
  simp only [Nat.div_div_eq_div_mul] at hsecond hfirst
  omega

/-- A smaller character has smaller bytes, whatever stands behind the two. -/
theorem encodeChar_append_lt {c d : Char} (h : c < d) (s t : List UInt8) :
    String.utf8EncodeChar c ++ s < String.utf8EncodeChar d ++ t := by
  have hlt : c.val.toNat < d.val.toNat := h
  have hmax : d.val.toNat < 0x110000 := by
    rcases d.valid with hlow | ⟨-, hhigh⟩
    · exact Nat.lt_trans hlow (by decide)
    · exact hhigh
  rw [String.utf8EncodeChar, String.utf8EncodeChar]
  generalize c.val.toNat = m at hlt ⊢
  generalize d.val.toNat = n at hlt hmax ⊢
  have hdigits := digits_lt hlt
  have hm : m / 262144 % 8 = m / 262144 := Nat.mod_eq_of_lt (by omega)
  have hn : n / 262144 % 8 = n / 262144 := Nat.mod_eq_of_lt (by omega)
  -- One case for each pair of lengths. By `hlt` there are at least as many bytes for `n`: with
  -- more of them the first bytes decide, and with as many the digits.
  split_ifs <;>
    simp (disch := omega) only [List.cons_append, List.nil_append, ofNat_cons_lt_iff] <;>
    omega

/-! ## Texts -/

theorem flatMap_encodeChar_lt {cs ds : List Char} (h : cs < ds) :
    cs.flatMap String.utf8EncodeChar < ds.flatMap String.utf8EncodeChar := by
  induction h with
  | @nil d ds =>
    obtain ⟨b, bytes, hd⟩ := List.exists_cons_of_ne_nil (@String.utf8EncodeChar_ne_nil d)
    rw [List.flatMap_cons, hd]
    exact List.nil_lt_cons b _
  | cons _ ih =>
    rw [List.flatMap_cons, List.flatMap_cons]
    exact List.append_left_lt ih
  | rel h =>
    rw [List.flatMap_cons, List.flatMap_cons]
    exact encodeChar_append_lt h _ _

/-- **The order of texts is that of their bytes.** -/
theorem encode_lt_encode_iff {a b : String} : encode a < encode b ↔ a < b := by
  have hencode {a b : String} (h : a < b) : encode a < encode b := flatMap_encodeChar_lt h
  refine ⟨fun h => ?_, hencode⟩
  rcases lt_trichotomy a b with hlt | rfl | hgt
  · exact hlt
  · exact absurd h (List.lt_irrefl _)
  · exact absurd h (List.lt_asymm (hencode hgt))

end Galley.Text.Utf8
