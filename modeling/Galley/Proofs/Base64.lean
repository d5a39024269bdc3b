/-
`Proofs/Base64.lean` -- a base64 text is the bytes as one number, written in another base.

Read as the digits of one number, most significant first, the bytes are a number in base 256
and the text is a number in base 64. Each padding character stands for two bits of zeros
behind the bytes, which fill up the last digit. This is the whole rule of the encoding: with
the number of digits fixed it leaves one text for each run of bytes. The decoder reads exactly
these texts, so it is the inverse of the encoder and accepts nothing else.
-/
import Galley.Base64
import Mathlib.Data.Nat.Digits.Lemmas

set_option autoImplicit false

namespace Galley.Base64

/-! ## Digits -/

theorem digit_eq (v : Nat) : digit v = alphabet[v]?.getD 'A' := by
  rw [digit, digits, Array.getD_eq_getD_getElem?, List.getElem?_toArray]

theorem value?_digit : ∀ v < 64, value? (digit v) = some v := by decide +kernel

theorem digit_ascii : ∀ v < 64, (digit v).toNat < 0x80 := by decide +kernel

/-- A character has a value if it is the digit of the value. -/
theorem value?_eq_some_iff {c : Char} {v : Nat} : value? c = some v ↔ v < 64 ∧ digit v = c := by
  constructor
  · intro h
    rw [value?] at h
    split at h
    next hlt =>
      obtain rfl := Option.some.inj h
      have hmem : c ∈ alphabet := List.idxOf_lt_length_iff.mp hlt
      refine ⟨hlt, ?_⟩
      rw [digit_eq, List.getElem?_idxOf hmem, Option.getD_some]
    next => cases h
  · rintro ⟨hlt, rfl⟩
    exact value?_digit v hlt

theorem digit_ne_mark {v : Nat} (h : v < 64) : digit v ≠ '=' := by
  intro hmark
  have hvalue := value?_digit v h
  rw [hmark] at hvalue
  cases hvalue

/-! ## The rule -/

/-- The number that digits of a base stand for, the most significant one first. -/
def number (base : Nat) (digits : List Nat) : Nat :=
  digits.foldl (fun n digit => n * base + digit) 0

/-- How many padding characters fill up the last group. -/
def padding (bytes : List UInt8) : Nat := (3 - bytes.length % 3) % 3

/-- The text has the digits of the bytes and the padding: they make up whole groups of four, one
for every three bytes begun, and are the same number but for the bits that were filled in. -/
def Spells (bytes : List UInt8) (text : String) : Prop :=
  ∃ values : List Nat, (∀ v ∈ values, v < 64) ∧
    text.toList = values.map digit ++ List.replicate (padding bytes) '=' ∧
    values.length + padding bytes = 4 * ((bytes.length + 2) / 3) ∧
    number 64 values = number 256 (bytes.map UInt8.toNat) * 4 ^ padding bytes

theorem number_eq_ofDigits (base : Nat) (digits : List Nat) :
    number base digits = Nat.ofDigits base digits.reverse := by
  rw [Nat.ofDigits_eq_foldr, List.foldr_reverse, number]
  congr 1
  funext n digit
  rw [Nat.cast_id, Nat.add_comm, Nat.mul_comm]

/-- Digits of one length that stand for one number are the same. -/
theorem number_inj {base : Nat} {l l' : List Nat} (hbase : 1 < base)
    (hlength : l.length = l'.length) (hl : ∀ v ∈ l, v < base) (hl' : ∀ v ∈ l', v < base)
    (h : number base l = number base l') : l = l' := by
  rw [number_eq_ofDigits, number_eq_ofDigits] at h
  refine List.reverse_injective (Nat.ofDigits_inj_of_len_eq hbase ?_ ?_ ?_ h)
  · rw [List.length_reverse, List.length_reverse, hlength]
  · exact fun v hv => hl v (List.mem_reverse.mp hv)
  · exact fun v hv => hl' v (List.mem_reverse.mp hv)

/-- The rule leaves one text. -/
theorem Spells.unique {bytes : List UInt8} {text text' : String} (h : Spells bytes text)
    (h' : Spells bytes text') : text = text' := by
  obtain ⟨values, hvalues, htext, hlength, hnumber⟩ := h
  obtain ⟨values', hvalues', htext', hlength', hnumber'⟩ := h'
  have hsame : values = values' :=
    number_inj (by decide) (Nat.add_right_cancel (hlength.trans hlength'.symm)) hvalues hvalues'
      (hnumber.trans hnumber'.symm)
  rw [← String.toList_inj, htext, htext', hsame]

/-! ## Encoding -/

/-- The values of the digits, group by group. -/
def values : List UInt8 → List Nat
  | [] => []
  | [a] => [a.toNat / 4, a.toNat % 4 * 16]
  | [a, b] =>
    let n := a.toNat * 256 + b.toNat
    [n / 1024, n / 16 % 64, n % 16 * 4]
  | a :: b :: c :: rest =>
    let n := a.toNat * 65536 + b.toNat * 256 + c.toNat
    n / 262144 :: n / 4096 % 64 :: n / 64 % 64 :: n % 64 :: values rest

/-- The digits and the padding of bytes. -/
def spelling (bytes : List UInt8) : List Char :=
  (values bytes).map digit ++ List.replicate (padding bytes) '='

theorem padding_group (a b c : UInt8) (rest : List UInt8) :
    padding (a :: b :: c :: rest) = padding rest := by
  rw [padding, padding]
  simp only [List.length_cons]
  omega

theorem spelling_group (a b c : UInt8) (rest : List UInt8) :
    spelling (a :: b :: c :: rest) = wholeGroup a b c ++ spelling rest := by
  rw [spelling, values, padding_group]
  rfl

theorem encodeOnto_eq (done : List Char) (bytes : List UInt8) :
    encodeOnto done bytes = done.reverse ++ spelling bytes := by
  induction bytes using values.induct generalizing done with
  | case1 => exact (List.append_nil _).symm
  | case2 a => rw [encodeOnto, List.reverse_append, List.reverse_reverse]; rfl
  | case3 a b => rw [encodeOnto, List.reverse_append, List.reverse_reverse]; rfl
  | case4 a b c rest ih =>
    rw [encodeOnto, ih, List.reverse_append, List.reverse_reverse, List.append_assoc,
      spelling_group]

theorem toList_encode (bytes : List UInt8) : (encode bytes).toList = spelling bytes := by
  rw [encode, String.toList_ofList, encodeOnto_eq, List.reverse_nil, List.nil_append]

theorem values_lt (bytes : List UInt8) : ∀ v ∈ values bytes, v < 64 := by
  induction bytes using values.induct with
  | case1 => exact List.forall_mem_nil _
  | case2 a =>
    have ha := a.toNat_lt
    simp only [values, List.forall_mem_cons]
    exact ⟨by omega, by omega, List.forall_mem_nil _⟩
  | case3 a b =>
    have ha := a.toNat_lt
    have hb := b.toNat_lt
    simp only [values, List.forall_mem_cons]
    exact ⟨by omega, by omega, by omega, List.forall_mem_nil _⟩
  | case4 a b c rest ih =>
    have ha := a.toNat_lt
    have hb := b.toNat_lt
    have hc := c.toNat_lt
    simp only [values, List.forall_mem_cons]
    exact ⟨by omega, by omega, by omega, by omega, ih⟩

theorem length_values (bytes : List UInt8) :
    (values bytes).length + padding bytes = 4 * ((bytes.length + 2) / 3) := by
  induction bytes using values.induct with
  | case1 => rfl
  | case2 a => simp [values, padding]
  | case3 a b => simp [values, padding]
  | case4 a b c rest ih =>
    rw [padding_group, values]
    simp only [List.length_cons]
    omega

/-- Four digits make up what three bytes do. -/
theorem group_digits {start a b c n : Nat} (hn : a * 65536 + b * 256 + c = n) :
    (((start * 64 + n / 262144) * 64 + n / 4096 % 64) * 64 + n / 64 % 64) * 64 + n % 64
      = ((start * 256 + a) * 256 + b) * 256 + c := by
  omega

/-- The two numbers go on in step, three bytes and four digits at a time. -/
theorem foldl_values (start : Nat) (bytes : List UInt8) :
    (values bytes).foldl (fun n digit => n * 64 + digit) start
      = (bytes.map UInt8.toNat).foldl (fun n byte => n * 256 + byte) start * 4 ^ padding bytes := by
  induction bytes using values.induct generalizing start with
  | case1 => exact (Nat.mul_one start).symm
  | case2 a =>
    have hpadding : padding [a] = 2 := rfl
    simp only [values, hpadding, List.map_cons, List.map_nil, List.foldl_cons, List.foldl_nil]
    omega
  | case3 a b =>
    have hpadding : padding [a, b] = 1 := rfl
    simp only [values, hpadding, List.map_cons, List.map_nil, List.foldl_cons, List.foldl_nil]
    omega
  | case4 a b c rest ih =>
    rw [padding_group, values]
    simp only [List.map_cons, List.foldl_cons]
    rw [group_digits rfl, ih]

/-- **The encoder keeps to the rule.** -/
theorem spells_encode (bytes : List UInt8) : Spells bytes (encode bytes) :=
  ⟨values bytes, values_lt bytes, toList_encode bytes, length_values bytes,
    foldl_values 0 bytes⟩

theorem spells_iff {bytes : List UInt8} {text : String} :
    Spells bytes text ↔ text = encode bytes := by
  constructor
  · exact fun h => h.unique (spells_encode bytes)
  · rintro rfl
    exact spells_encode bytes

theorem length_encode (bytes : List UInt8) :
    (encode bytes).length = 4 * ((bytes.length + 2) / 3) := by
  rw [← String.length_toList, toList_encode, spelling, List.length_append, List.length_map,
    List.length_replicate, length_values]

/-! ## Decoding -/

theorem guard_eq_some_iff {p : Prop} [Decidable p] {u : Unit} :
    (guard p : Option Unit) = some u ↔ p := by
  simp [guard]

/-- Bytes that are put together from four values are written with their digits. -/
theorem spelling_whole {p q r s : Nat} (hp : p < 64) (hq : q < 64) (hr : r < 64) (hs : s < 64)
    (rest : List UInt8) :
    spelling (UInt8.ofNat (p * 4 + q / 16) :: UInt8.ofNat (q % 16 * 16 + r / 4)
        :: UInt8.ofNat (r % 4 * 64 + s) :: rest)
      = digit p :: digit q :: digit r :: digit s :: spelling rest := by
  have hbytes : (p * 4 + q / 16) % 256 * 65536 + (q % 16 * 16 + r / 4) % 256 * 256
      + (r % 4 * 64 + s) % 256 = p * 262144 + q * 4096 + r * 64 + s := by omega
  have hfirst : (p * 262144 + q * 4096 + r * 64 + s) / 262144 = p := by omega
  have hsecond : (p * 262144 + q * 4096 + r * 64 + s) / 4096 % 64 = q := by omega
  have hthird : (p * 262144 + q * 4096 + r * 64 + s) / 64 % 64 = r := by omega
  have hfourth : (p * 262144 + q * 4096 + r * 64 + s) % 64 = s := by omega
  rw [spelling_group, wholeGroup]
  simp only [UInt8.toNat_ofNat', Nat.reducePow, hbytes, hfirst, hsecond, hthird, hfourth,
    List.cons_append, List.nil_append]

theorem spelling_pair {p q r : Nat} (hp : p < 64) (hq : q < 64) (hr : r < 64) (hbits : r % 4 = 0) :
    spelling [UInt8.ofNat (p * 4 + q / 16), UInt8.ofNat (q % 16 * 16 + r / 4)]
      = [digit p, digit q, digit r, '='] := by
  have hbytes : (p * 4 + q / 16) % 256 * 256 + (q % 16 * 16 + r / 4) % 256
      = p * 1024 + q * 16 + r / 4 := by omega
  have hfirst : (p * 1024 + q * 16 + r / 4) / 1024 = p := by omega
  have hsecond : (p * 1024 + q * 16 + r / 4) / 16 % 64 = q := by omega
  have hthird : (p * 1024 + q * 16 + r / 4) % 16 * 4 = r := by omega
  show pairGroup _ _ = _
  rw [pairGroup]
  simp only [UInt8.toNat_ofNat', Nat.reducePow, hbytes, hfirst, hsecond, hthird]

theorem spelling_single {p q : Nat} (hp : p < 64) (hq : q < 64) (hbits : q % 16 = 0) :
    spelling [UInt8.ofNat (p * 4 + q / 16)] = [digit p, digit q, '=', '='] := by
  have hfirst : (p * 4 + q / 16) % 256 / 4 = p := by omega
  have hsecond : (p * 4 + q / 16) % 256 % 4 * 16 = q := by omega
  show singleGroup _ = _
  rw [singleGroup]
  simp only [UInt8.toNat_ofNat', Nat.reducePow, hfirst, hsecond]

/-- What decodes to bytes is written like them. The cases are the groups of the decoder. -/
theorem eq_spelling_of_decodeDigits {cs : List Char} {bytes : List UInt8}
    (h : decodeDigits cs = some bytes) : cs = spelling bytes := by
  induction cs using decodeDigits.induct generalizing bytes with
  | case1 =>
    obtain rfl := Option.some.inj h
    rfl
  | case2 _ _ =>
    simp only [decodeDigits, Option.bind_eq_bind, Option.bind_eq_some_iff, value?_eq_some_iff,
      guard_eq_some_iff, exists_const] at h
    obtain ⟨p, ⟨hp, rfl⟩, q, ⟨hq, rfl⟩, hbits, hbytes⟩ := h
    obtain rfl := Option.some.inj hbytes
    exact (spelling_single hp hq hbits).symm
  | case3 _ _ _ hmark =>
    rw [decodeDigits.eq_3 _ _ _ hmark] at h
    simp only [Option.bind_eq_bind, Option.bind_eq_some_iff, value?_eq_some_iff,
      guard_eq_some_iff, exists_const] at h
    obtain ⟨p, ⟨hp, rfl⟩, q, ⟨hq, rfl⟩, r, ⟨hr, rfl⟩, hbits, hbytes⟩ := h
    obtain rfl := Option.some.inj hbytes
    exact (spelling_pair hp hq hr hbits).symm
  | case4 _ _ _ _ rest hpads hpad ih =>
    rw [decodeDigits.eq_4 _ _ _ _ _ hpads hpad] at h
    simp only [Option.bind_eq_bind, Option.bind_eq_some_iff, value?_eq_some_iff] at h
    obtain ⟨p, ⟨hp, rfl⟩, q, ⟨hq, rfl⟩, r, ⟨hr, rfl⟩, s, ⟨hs, rfl⟩, tail, htail, hbytes⟩ := h
    obtain rfl := Option.some.inj hbytes
    rw [spelling_whole hp hq hr hs, ← ih htail]
  | case5 cs h₁ h₂ h₃ h₄ =>
    rw [decodeDigits.eq_5 cs h₁ h₂ h₃ h₄] at h
    cases h

section Groups

variable {p q r s : Nat}

theorem decodeDigits_single (hp : p < 64) (hq : q < 64) (hbits : q % 16 = 0) :
    decodeDigits [digit p, digit q, '=', '='] = some [UInt8.ofNat (p * 4 + q / 16)] := by
  rw [decodeDigits, value?_digit p hp, value?_digit q hq]
  simp [guard, hbits]

theorem decodeDigits_pair (hp : p < 64) (hq : q < 64) (hr : r < 64) (hbits : r % 4 = 0) :
    decodeDigits [digit p, digit q, digit r, '=']
      = some [UInt8.ofNat (p * 4 + q / 16), UInt8.ofNat (q % 16 * 16 + r / 4)] := by
  rw [decodeDigits.eq_3 _ _ _ (digit_ne_mark hr), value?_digit p hp, value?_digit q hq,
    value?_digit r hr]
  simp [guard, hbits]

theorem decodeDigits_whole (hp : p < 64) (hq : q < 64) (hr : r < 64) (hs : s < 64)
    (rest : List Char) :
    decodeDigits (digit p :: digit q :: digit r :: digit s :: rest)
      = (decodeDigits rest).map fun tail => UInt8.ofNat (p * 4 + q / 16)
          :: UInt8.ofNat (q % 16 * 16 + r / 4) :: UInt8.ofNat (r % 4 * 64 + s) :: tail := by
  rw [decodeDigits.eq_4 _ _ _ _ _ (fun h => absurd h (digit_ne_mark hr))
      (fun h => absurd h (digit_ne_mark hs)), value?_digit p hp, value?_digit q hq,
    value?_digit r hr, value?_digit s hs]
  cases decodeDigits rest <;> rfl

end Groups

theorem ofNat_eq {n : Nat} {a : UInt8} (h : n = a.toNat) : UInt8.ofNat n = a := by
  rw [h, UInt8.ofNat_toNat]

/-- What is written like bytes decodes to them. -/
theorem decodeDigits_spelling (bytes : List UInt8) :
    decodeDigits (spelling bytes) = some bytes := by
  have hvalues := values_lt bytes
  induction bytes using values.induct with
  | case1 => rfl
  | case2 a =>
    simp only [values, List.forall_mem_cons] at hvalues
    obtain ⟨hp, hq, -⟩ := hvalues
    show decodeDigits (singleGroup a) = some [a]
    rw [singleGroup, decodeDigits_single hp hq (by omega), ofNat_eq (a := a) (by omega)]
  | case3 a b =>
    have hb := b.toNat_lt
    simp only [values, List.forall_mem_cons] at hvalues
    obtain ⟨hp, hq, hr, -⟩ := hvalues
    show decodeDigits (pairGroup a b) = some [a, b]
    rw [pairGroup, decodeDigits_pair hp hq hr (by omega), ofNat_eq (a := a) (by omega),
      ofNat_eq (a := b) (by omega)]
  | case4 a b c rest ih =>
    have hb := b.toNat_lt
    have hc := c.toNat_lt
    simp only [values, List.forall_mem_cons] at hvalues
    obtain ⟨hp, hq, hr, hs, hrest⟩ := hvalues
    rw [spelling_group, wholeGroup]
    simp only [List.cons_append, List.nil_append]
    rw [decodeDigits_whole hp hq hr hs, ih hrest, Option.map_some, ofNat_eq (a := a) (by omega),
      ofNat_eq (a := b) (by omega), ofNat_eq (a := c) (by omega)]

/-- **The decoder reads what is written by the rule, and nothing else.** -/
theorem decode?_eq_some_iff {text : String} {bytes : List UInt8} :
    decode? text = some bytes ↔ Spells bytes text := by
  rw [spells_iff, decode?, ← String.toList_inj, toList_encode]
  constructor
  · exact eq_spelling_of_decodeDigits
  · intro h
    rw [h, decodeDigits_spelling]

/-- Nothing is lost on the way into a text. -/
theorem decode?_encode (bytes : List UInt8) : decode? (encode bytes) = some bytes :=
  decode?_eq_some_iff.mpr (spells_encode bytes)

example : encode [37, 80, 68, 70, 45, 49, 46, 53] = "JVBERi0xLjU=" := by decide

end Galley.Base64
