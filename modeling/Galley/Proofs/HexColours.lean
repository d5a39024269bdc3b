/-
`Proofs/HexColours.lean` -- which texts spell a colour, and which colour.

The reader is held to a grammar. A spelling is three or six digits of base sixteen with at
most one `#` in front of them and blanks around it all; three digits are short for each of
them written twice, and two digits are the value of a component. The digits are those that
the library writes numbers with, in either case, so the grammar does not look into the
reader.

The digits can also be cut out of the text by their byte offsets, two at a time, and each
pair given to a reader of integers, which would take a sign and can overflow. This is
written down as a second reader with all the ways in which it could fail. It is shown to
answer as the first one does; so none of them is ever met.
-/
import Galley.Colour
import Galley.Proofs.Trimming
import Mathlib.Algebra.Ring.Nat
import Mathlib.Data.List.Forall2

set_option autoImplicit false

namespace Galley

namespace Text

/-! ## Digits -/

/-- A digit of base sixteen, of either case, with its value. -/
def IsHexDigit (c : Char) (value : Nat) : Prop :=
  value < 16 ∧ (c = Nat.digitChar value ∨ c = (Nat.digitChar value).toUpper)

instance (c : Char) (value : Nat) : Decidable (IsHexDigit c value) :=
  inferInstanceAs (Decidable (_ ∧ _))

variable {c : Char} {value : Nat}

/-- What holds of the sixteen digits in both cases holds of every digit. -/
theorem IsHexDigit.elim {p : Char → Nat → Prop} (h : IsHexDigit c value)
    (hall : ∀ v < 16, p (Nat.digitChar v) v ∧ p (Nat.digitChar v).toUpper v) : p c value := by
  obtain ⟨hvalue, rfl | rfl⟩ := h
  · exact (hall value hvalue).1
  · exact (hall value hvalue).2

/-- A character of a range, by its distance from the first one. -/
theorem exists_offset {low high : Char} (h : (low ≤ c && c ≤ high) = true) :
    ∃ k ≤ high.toNat - low.toNat, c.toNat - low.toNat = k ∧ c = Char.ofNat (low.toNat + k) := by
  rw [Bool.and_eq_true, decide_eq_true_eq, decide_eq_true_eq] at h
  have hlow : low.toNat ≤ c.toNat := h.1
  have hhigh : c.toNat ≤ high.toNat := h.2
  refine ⟨c.toNat - low.toNat, by omega, rfl, ?_⟩
  rw [Nat.add_sub_cancel' hlow, Char.ofNat_toNat]

/-- **The digits that are read** are those that numbers are written with. -/
theorem hexValue?_eq_some_iff : hexValue? c = some value ↔ IsHexDigit c value := by
  constructor
  · intro h
    have hdecimal : ∀ k ≤ 9, IsHexDigit (Char.ofNat ('0'.toNat + k)) k := by decide
    have hlower : ∀ k ≤ 5, IsHexDigit (Char.ofNat ('a'.toNat + k)) (k + 10) := by decide
    have hupper : ∀ k ≤ 5, IsHexDigit (Char.ofNat ('A'.toNat + k)) (k + 10) := by decide
    rw [hexValue?] at h
    split at h
    · next hrange =>
      obtain ⟨k, hk, hvalue, rfl⟩ := exists_offset hrange
      obtain rfl : k = value := hvalue.symm.trans (Option.some.inj h)
      exact hdecimal k hk
    · split at h
      · next hrange =>
        obtain ⟨k, hk, hvalue, rfl⟩ := exists_offset hrange
        rw [hvalue, Option.some.injEq] at h
        exact h ▸ hlower k hk
      · split at h
        · next hrange =>
          obtain ⟨k, hk, hvalue, rfl⟩ := exists_offset hrange
          rw [hvalue, Option.some.injEq] at h
          exact h ▸ hupper k hk
        · cases h
  · intro h
    exact h.elim (p := fun c value => hexValue? c = some value) (by decide)

/-- A digit has one value. -/
theorem IsHexDigit.unique {other : Nat} (h : IsHexDigit c value) (h' : IsHexDigit c other) :
    value = other := by
  rw [← hexValue?_eq_some_iff] at h h'
  exact Option.some.inj (h.symm.trans h')

/-- In upper case a digit is the one that colours are written with. -/
theorem IsHexDigit.toUpper_eq (h : IsHexDigit c value) : c.toUpper = upperHexDigit value :=
  h.elim (p := fun c value => c.toUpper = upperHexDigit value) (by decide)

/-! A digit takes one byte, is no blank and cannot be taken for the mark of a colour or the sign of
a number. -/

theorem IsHexDigit.toNat_lt (h : IsHexDigit c value) : c.toNat < 0x80 :=
  h.elim (p := fun c _ => c.toNat < 0x80) (by decide)

theorem IsHexDigit.utf8Size_eq (h : IsHexDigit c value) : c.utf8Size = 1 :=
  h.elim (p := fun c _ => c.utf8Size = 1) (by decide)

theorem IsHexDigit.isBlank_eq (h : IsHexDigit c value) : isBlank c = false :=
  h.elim (p := fun c _ => isBlank c = false) (by decide)

theorem IsHexDigit.ne_mark (h : IsHexDigit c value) : c ≠ '#' :=
  h.elim (p := fun c _ => c ≠ '#') (by decide)

theorem IsHexDigit.ne_plus (h : IsHexDigit c value) : c ≠ '+' :=
  h.elim (p := fun c _ => c ≠ '+') (by decide)

theorem isHexDigit_upperHexDigit : ∀ value < 16, IsHexDigit (upperHexDigit value) value := by
  decide

end Text

namespace Colour

open Text

/-! ## The grammar -/

/-- Two digits and the component that they are the value of. -/
def IsPair (high low : Char) (component : UInt8) : Prop :=
  ∃ h l, IsHexDigit high h ∧ IsHexDigit low l ∧ component.toNat = 16 * h + l

/-- Three digits are short for each of them twice. -/
def longForm : List Char → List Char
  | [r, g, b] => [r, r, g, g, b, b]
  | digits => digits

/-- The colour that digits denote. -/
def Denotes (digits : List Char) (colour : Colour) : Prop :=
  ∃ r r' g g' b b', longForm digits = [r, r', g, g', b, b'] ∧
    IsPair r r' colour.red ∧ IsPair g g' colour.green ∧ IsPair b b' colour.blue

/-- **How a colour is spelt**: its digits, at most one mark in front of them, and blanks around
it all. -/
def Spells (s : String) (colour : Colour) : Prop :=
  ∃ before mark digits after, Blank before ∧ Blank after ∧ (mark = [] ∨ mark = ['#']) ∧
    s.toList = before ++ (mark ++ digits) ++ after ∧ Denotes digits colour

variable {s : String} {colour : Colour} {digits : List Char} {values : List Nat}

/-! ## Values of digits -/

theorem toNat_component {h l : Nat} (hh : h < 16) (hl : l < 16) :
    (component h l).toNat = 16 * h + l := by
  rw [component, UInt8.toNat_ofNat']
  omega

/-- A pair is read as the value of its digits. -/
theorem isPair_iff {high low : Char} {n : UInt8} :
    IsPair high low n ↔ ∃ h l, IsHexDigit high h ∧ IsHexDigit low l ∧ n = component h l := by
  have hsame : ∀ h l, IsHexDigit high h → IsHexDigit low l →
      (n.toNat = 16 * h + l ↔ n = component h l) := by
    intro h l hhigh hlow
    rw [← toNat_component hhigh.1 hlow.1, UInt8.toNat_inj]
  constructor
  · rintro ⟨h, l, hhigh, hlow, hn⟩
    exact ⟨h, l, hhigh, hlow, (hsame h l hhigh hlow).mp hn⟩
  · rintro ⟨h, l, hhigh, hlow, hn⟩
    exact ⟨h, l, hhigh, hlow, (hsame h l hhigh hlow).mpr hn⟩

/-- A digit twice. -/
theorem isPair_self_iff {d : Char} {n : UInt8} :
    IsPair d d n ↔ ∃ v, IsHexDigit d v ∧ n = component v v := by
  rw [isPair_iff]
  constructor
  · rintro ⟨h, l, hhigh, hlow, hn⟩
    obtain rfl := hhigh.unique hlow
    exact ⟨h, hhigh, hn⟩
  · rintro ⟨v, hv, hn⟩
    exact ⟨v, v, hv, hv, hn⟩

/-- Digits denote the colour that their values give. -/
theorem denotes_of_values (h : List.Forall₂ IsHexDigit digits values)
    (hcolour : ofValues? values = some colour) : Denotes digits colour := by
  unfold ofValues? at hcolour
  split at hcolour
  · obtain rfl := Option.some.inj hcolour
    obtain _ | ⟨hr, _ | ⟨hg, _ | ⟨hb, _ | _⟩⟩⟩ := h
    exact ⟨_, _, _, _, _, _, rfl, isPair_self_iff.mpr ⟨_, hr, rfl⟩,
      isPair_self_iff.mpr ⟨_, hg, rfl⟩, isPair_self_iff.mpr ⟨_, hb, rfl⟩⟩
  · obtain rfl := Option.some.inj hcolour
    obtain _ | ⟨hr, _ | ⟨hr', _ | ⟨hg, _ | ⟨hg', _ | ⟨hb, _ | ⟨hb', _ | _⟩⟩⟩⟩⟩⟩ := h
    exact ⟨_, _, _, _, _, _, rfl, isPair_iff.mpr ⟨_, _, hr, hr', rfl⟩,
      isPair_iff.mpr ⟨_, _, hg, hg', rfl⟩, isPair_iff.mpr ⟨_, _, hb, hb', rfl⟩⟩
  · cases hcolour

theorem values_of_denotes (h : Denotes digits colour) :
    ∃ values, List.Forall₂ IsHexDigit digits values ∧ ofValues? values = some colour := by
  obtain ⟨r, r', g, g', b, b', hlong, hred, hgreen, hblue⟩ := h
  unfold longForm at hlong
  split at hlong
  · -- The digits of the short form are those of the long one, two by two.
    simp only [List.cons.injEq, and_true] at hlong
    obtain ⟨rfl, rfl, rfl, rfl, rfl, rfl⟩ := hlong
    obtain ⟨vr, hr, hred⟩ := isPair_self_iff.mp hred
    obtain ⟨vg, hg, hgreen⟩ := isPair_self_iff.mp hgreen
    obtain ⟨vb, hb, hblue⟩ := isPair_self_iff.mp hblue
    refine ⟨[vr, vg, vb], .cons hr (.cons hg (.cons hb .nil)), ?_⟩
    rw [ofValues?, ← hred, ← hgreen, ← hblue]
  · obtain rfl := hlong
    obtain ⟨vr, vr', hr, hr', hred⟩ := isPair_iff.mp hred
    obtain ⟨vg, vg', hg, hg', hgreen⟩ := isPair_iff.mp hgreen
    obtain ⟨vb, vb', hb, hb', hblue⟩ := isPair_iff.mp hblue
    refine ⟨[vr, vr', vg, vg', vb, vb'],
      .cons hr (.cons hr' (.cons hg (.cons hg' (.cons hb (.cons hb' .nil))))), ?_⟩
    rw [ofValues?, ← hred, ← hgreen, ← hblue]

/-- Values give a colour when there are three or six of them. -/
theorem isSome_ofValues? : (ofValues? values).isSome = true ↔
    values.length = 3 ∨ values.length = 6 := by
  unfold ofValues?
  split
  · simp
  · simp
  · next hthree hsix =>
    refine iff_of_false (by simp) ?_
    rintro (hlength | hlength)
    · obtain ⟨r, g, b, rfl⟩ := List.length_eq_three.mp hlength
      exact hthree r g b rfl
    · match values, hlength with
      | [r, r', g, g', b, b'], _ => exact hsix r r' g g' b b' rfl

/-- Every list of digits has its values. -/
theorem exists_values (h : ∀ d ∈ digits, ∃ v, IsHexDigit d v) :
    ∃ values, List.Forall₂ IsHexDigit digits values := by
  induction digits with
  | nil => exact ⟨[], .nil⟩
  | cons d digits ih =>
    obtain ⟨⟨v, hv⟩, hdigits⟩ := List.forall_mem_cons.mp h
    obtain ⟨values, hvalues⟩ := ih hdigits
    exact ⟨v :: values, .cons hv hvalues⟩

theorem exists_digit_of_mem (h : List.Forall₂ IsHexDigit digits values) :
    ∀ d ∈ digits, ∃ v, IsHexDigit d v := by
  induction h with
  | nil => exact List.forall_mem_nil _
  | cons hd _ ih => exact List.forall_mem_cons.mpr ⟨⟨_, hd⟩, ih⟩

/-- **Which digits denote a colour**: three or six of them. -/
theorem exists_denotes_iff : (∃ colour, Denotes digits colour) ↔
    (digits.length = 3 ∨ digits.length = 6) ∧ ∀ d ∈ digits, ∃ v, IsHexDigit d v := by
  constructor
  · rintro ⟨colour, h⟩
    obtain ⟨values, hvalues, hcolour⟩ := values_of_denotes h
    rw [hvalues.length_eq]
    exact ⟨isSome_ofValues?.mp (Option.isSome_of_eq_some hcolour), exists_digit_of_mem hvalues⟩
  · rintro ⟨hlength, hdigits⟩
    obtain ⟨values, hvalues⟩ := exists_values hdigits
    rw [hvalues.length_eq, ← isSome_ofValues?] at hlength
    obtain ⟨colour, hcolour⟩ := Option.isSome_iff_exists.mp hlength
    exact ⟨colour, denotes_of_values hvalues hcolour⟩

/-! ## The reader -/

/-- Why a text is not made of digits: a character outside ASCII first, then the first one that is
no digit. -/
def digitFault? (hex : List Char) : Option HexFault :=
  if hex.any fun c => 0x80 ≤ c.toNat then some .nonAscii
  else (hex.find? fun c => (hexValue? c).isNone).map .notADigit

theorem digitFault?_eq_none_iff {hex : List Char} :
    digitFault? hex = none ↔ ∀ d ∈ hex, ∃ v, IsHexDigit d v := by
  have hdigit : ∀ d, ¬ (hexValue? d).isNone = true ↔ ∃ v, IsHexDigit d v := by
    intro d
    rw [Option.isNone_iff_eq_none, ← ne_eq, Option.ne_none_iff_exists']
    simp only [hexValue?_eq_some_iff]
  rw [digitFault?]
  split
  · next hany =>
    refine iff_of_false (Option.some_ne_none _) fun hall => ?_
    obtain ⟨d, hd, hhigh⟩ := List.any_eq_true.mp hany
    obtain ⟨v, hv⟩ := hall d hd
    have hascii : d.toNat < 0x80 := hv.toNat_lt
    have hhigh : 0x80 ≤ d.toNat := of_decide_eq_true hhigh
    omega
  · rw [Option.map_eq_none_iff, List.find?_eq_none]
    exact forall₂_congr fun d _ => hdigit d

theorem parseHex_eq (s : String) :
    parseHex s = match digitFault? (hexPart s) with
      | some fault => .error (.invalidHex s fault)
      | none =>
        match ofValues? ((hexPart s).filterMap hexValue?) with
        | some colour => .ok colour
        | none => .error (.invalidHex s (.length (hexPart s).length)) := by
  rw [parseHex, digitFault?]
  split
  · rfl
  · cases (hexPart s).find? fun c => (hexValue? c).isNone <;> rfl

/-- Whatever the text, a colour is answered or a fault of the very text. -/
theorem parseHex_ok_or_error (s : String) :
    (∃ colour, parseHex s = .ok colour) ∨ ∃ fault, parseHex s = .error (.invalidHex s fault) := by
  rw [parseHex_eq]
  split
  · exact .inr ⟨_, rfl⟩
  · split
    · exact .inl ⟨_, rfl⟩
    · exact .inr ⟨_, rfl⟩

theorem filterMap_hexValue? (h : List.Forall₂ IsHexDigit digits values) :
    digits.filterMap hexValue? = values := by
  induction h with
  | nil => rfl
  | cons hd _ ih => rw [List.filterMap_cons_some (hexValue?_eq_some_iff.mpr hd), ih]

theorem parseHex_ok_iff : parseHex s = .ok colour ↔ Denotes (hexPart s) colour := by
  rw [parseHex_eq]
  constructor
  · intro h
    split at h
    · cases h
    · next hnone =>
      obtain ⟨values, hvalues⟩ := exists_values (digitFault?_eq_none_iff.mp hnone)
      rw [filterMap_hexValue? hvalues] at h
      split at h
      · next hcolour =>
        obtain rfl := Except.ok.inj h
        exact denotes_of_values hvalues hcolour
      · cases h
  · intro h
    obtain ⟨values, hvalues, hcolour⟩ := values_of_denotes h
    rw [digitFault?_eq_none_iff.mpr (exists_digit_of_mem hvalues), filterMap_hexValue? hvalues,
      hcolour]

/-- The digits of a text stand behind at most one mark. -/
theorem exists_mark (s : String) :
    ∃ mark, (mark = [] ∨ mark = ['#']) ∧ trimBlanks s.toList = mark ++ hexPart s := by
  unfold hexPart
  split
  · next rest htrim => exact ⟨['#'], .inr rfl, htrim⟩
  · exact ⟨[], .inl rfl, rfl⟩

theorem hexPart_of_trim {mark : List Char} (hmark : mark = [] ∨ mark = ['#'])
    (hdigits : ∀ d ∈ digits, ∃ v, IsHexDigit d v)
    (htrim : trimBlanks s.toList = mark ++ digits) : hexPart s = digits := by
  unfold hexPart
  rw [htrim]
  rcases hmark with rfl | rfl
  · -- The first digit is no mark.
    split
    · next rest hrest =>
      obtain ⟨v, hv⟩ := hdigits '#' (by rw [← List.nil_append digits, hrest]; simp)
      exact absurd rfl hv.ne_mark
    · rfl
  · rfl

/-- A mark with digits has no blanks in it. -/
theorem trimmed_digits {mark : List Char} (hmark : mark = [] ∨ mark = ['#'])
    (hdigits : ∀ d ∈ digits, ∃ v, IsHexDigit d v) : Trimmed (mark ++ digits) := by
  refine trimmed_of_forall fun c hc => ?_
  rcases List.mem_append.mp hc with hc | hc
  · rcases hmark with rfl | rfl
    · cases hc
    · rw [List.mem_singleton.mp hc]
      decide
  · obtain ⟨v, hv⟩ := hdigits c hc
    exact hv.isBlank_eq

theorem spells_iff : Spells s colour ↔ Denotes (hexPart s) colour := by
  constructor
  · rintro ⟨before, mark, digits, after, hbefore, hafter, hmark, htext, hcolour⟩
    have hdigits := (exists_denotes_iff.mp ⟨colour, hcolour⟩).2
    have htrim : trimBlanks s.toList = mark ++ digits :=
      trimBlanks_eq_iff.mpr
        ⟨trimmed_digits hmark hdigits, before, after, hbefore, hafter, htext⟩
    rwa [hexPart_of_trim hmark hdigits htrim]
  · intro h
    obtain ⟨mark, hmark, htrim⟩ := exists_mark s
    obtain ⟨before, after, hbefore, hafter, htext⟩ := exists_blanks s.toList
    exact ⟨before, mark, hexPart s, after, hbefore, hafter, hmark, htrim ▸ htext, h⟩

/-- **The reader accepts the grammar**, and answers the colour that is spelt. -/
theorem parseHex_ok_iff_spells : parseHex s = .ok colour ↔ Spells s colour := by
  rw [parseHex_ok_iff, spells_iff]

/-! ## Reading by offsets -/

/-- What a text holds in front of a byte offset and behind it, if the offset stands between two
characters. -/
def splitBytes? : List Char → Nat → Option (List Char × List Char)
  | cs, 0 => some ([], cs)
  | [], _ + 1 => none
  | c :: cs, n + 1 =>
    if n + 1 < c.utf8Size then none
    else (splitBytes? cs (n + 1 - c.utf8Size)).map fun parts => (c :: parts.1, parts.2)

/-- What a text holds between two byte offsets. -/
def slice? (cs : List Char) (start stop : Nat) : Option (List Char) :=
  if stop < start then none
  else (splitBytes? cs start).bind fun parts => (splitBytes? parts.2 (stop - start)).map Prod.fst

/-- Why a text is no integer of one byte. -/
inductive IntegerFault where
  | empty
  | invalidDigit
  | overflow
  deriving DecidableEq, Repr

/-- Puts one more digit to a number that has to stay below 256. -/
def absorbDigit (n : Nat) (c : Char) : Except IntegerFault Nat :=
  match hexValue? c with
  | none => .error .invalidDigit
  | some v => if 255 < n * 16 + v then .error .overflow else .ok (n * 16 + v)

/-- Reads an integer of one byte in base sixteen. A plus sign may stand in front of it. -/
def readByte : List Char → Except IntegerFault UInt8
  | [] => .error .empty
  | c :: cs =>
    if cs = [] ∧ (c = '+' ∨ c = '-') then .error .invalidDigit
    else ((if c = '+' then cs else c :: cs).foldlM absorbDigit 0).map UInt8.ofNat

/-- What can go wrong where components are cut out of a text. -/
inductive OffsetFault where
  | refused (cause : ColourError)
  /-- An offset lies behind the text or inside a character. -/
  | outOfBounds (start stop : Nat)
  | component (name : String) (fault : IntegerFault)
  deriving DecidableEq, Repr

/-- The component that is written so many times between two offsets. -/
def cutComponent (hex : List Char) (name : String) (start stop times : Nat) :
    Except OffsetFault UInt8 :=
  match slice? hex start stop with
  | none => .error (.outOfBounds start stop)
  | some part =>
    match readByte (List.replicate times part).flatten with
    | .error fault => .error (.component name fault)
    | .ok n => .ok n

/-- Reads a colour by the byte offsets of its components. -/
def parseByOffsets (s : String) : Except OffsetFault Colour :=
  let hex := hexPart s
  match digitFault? hex with
  | some fault => .error (.refused (.invalidHex s fault))
  | none =>
    match (hex.map Char.utf8Size).sum with
    | 3 => do
      let red ← cutComponent hex "red" 0 1 2
      let green ← cutComponent hex "green" 1 2 2
      let blue ← cutComponent hex "blue" 2 3 2
      pure ⟨red, green, blue⟩
    | 6 => do
      let red ← cutComponent hex "red" 0 2 1
      let green ← cutComponent hex "green" 2 4 1
      let blue ← cutComponent hex "blue" 4 6 1
      pure ⟨red, green, blue⟩
    | n => .error (.refused (.invalidHex s (.length n)))

/-- In a text of digits every offset up to its end stands between two characters. -/
theorem splitBytes?_digits (h : ∀ d ∈ digits, ∃ v, IsHexDigit d v) {n : Nat}
    (hn : n ≤ digits.length) : splitBytes? digits n = some (digits.take n, digits.drop n) := by
  induction digits generalizing n with
  | nil =>
    obtain rfl : n = 0 := Nat.le_zero.mp hn
    rfl
  | cons d digits ih =>
    cases n with
    | zero => rfl
    | succ n =>
      obtain ⟨⟨v, hv⟩, hdigits⟩ := List.forall_mem_cons.mp h
      rw [splitBytes?, hv.utf8Size_eq, if_neg (by omega), Nat.add_sub_cancel,
        ih hdigits (Nat.le_of_succ_le_succ hn)]
      rfl

theorem slice?_digits (h : ∀ d ∈ digits, ∃ v, IsHexDigit d v) {start stop : Nat}
    (hstart : start ≤ stop) (hstop : stop ≤ digits.length) :
    slice? digits start stop = some ((digits.drop start).take (stop - start)) := by
  have hrest : ∀ d ∈ digits.drop start, ∃ v, IsHexDigit d v :=
    fun d hd => h d (List.mem_of_mem_drop hd)
  have hlength : stop - start ≤ (digits.drop start).length := by
    rw [List.length_drop]
    omega
  rw [slice?, if_neg (Nat.not_lt.mpr hstart),
    splitBytes?_digits h (Nat.le_trans hstart hstop), Option.bind_some,
    splitBytes?_digits hrest hlength, Option.map_some]

/-- Two digits are an integer of one byte: no sign stands among them, and the value is below
256. -/
theorem readByte_pair {high low : Char} {h l : Nat} (hhigh : IsHexDigit high h)
    (hlow : IsHexDigit low l) : readByte [high, low] = .ok (component h l) := by
  have hh : h < 16 := hhigh.1
  have hl : l < 16 := hlow.1
  have hfirst : absorbDigit 0 high = .ok h := by
    rw [absorbDigit, hexValue?_eq_some_iff.mpr hhigh]
    simp only [Nat.zero_mul, Nat.zero_add]
    exact if_neg (by omega)
  have hsecond : absorbDigit h low = .ok (h * 16 + l) := by
    rw [absorbDigit, hexValue?_eq_some_iff.mpr hlow]
    exact if_neg (by omega)
  have hnotSign : ¬ ([low] = [] ∧ (high = '+' ∨ high = '-')) := fun hsign => by cases hsign.1
  have hfold : [high, low].foldlM absorbDigit 0 = .ok (h * 16 + l) := by
    rw [List.foldlM_cons, hfirst]
    change [low].foldlM absorbDigit h = _
    rw [List.foldlM_cons, hsecond]
    rfl
  rw [readByte, if_neg hnotSign, if_neg hhigh.ne_plus, hfold]
  rfl

/-- The component that two digits spell, wherever they stand among the digits. -/
theorem cutComponent_pair (hdigits : ∀ d ∈ digits, ∃ v, IsHexDigit d v) (name : String)
    {start stop times h l : Nat} {high low : Char} (hstart : start ≤ stop)
    (hstop : stop ≤ digits.length)
    (hpart : (List.replicate times ((digits.drop start).take (stop - start))).flatten = [high, low])
    (hhigh : IsHexDigit high h) (hlow : IsHexDigit low l) :
    cutComponent digits name start stop times = .ok (component h l) := by
  rw [cutComponent, slice?_digits hdigits hstart hstop]
  simp only [hpart, readByte_pair hhigh hlow]

theorem sum_utf8Size (h : ∀ d ∈ digits, ∃ v, IsHexDigit d v) :
    (digits.map Char.utf8Size).sum = digits.length := by
  induction digits with
  | nil => rfl
  | cons d digits ih =>
    obtain ⟨⟨v, hv⟩, hdigits⟩ := List.forall_mem_cons.mp h
    rw [List.map_cons, List.sum_cons, hv.utf8Size_eq, ih hdigits, List.length_cons, Nat.add_comm]

/-- **Both readers answer alike.** The second one does not leave the text, meets no sign and does
not overflow. -/
theorem parseByOffsets_eq (s : String) :
    parseByOffsets s = (parseHex s).mapError .refused := by
  rw [parseHex_eq]
  unfold parseByOffsets
  simp only
  cases hfault : digitFault? (hexPart s) with
  | some fault => rfl
  | none =>
    have hdigits := digitFault?_eq_none_iff.mp hfault
    obtain ⟨values, hvalues⟩ := exists_values hdigits
    simp only [sum_utf8Size hdigits, filterMap_hexValue? hvalues]
    generalize hexPart s = digits at hdigits hvalues
    split
    · next hlength =>
      obtain ⟨r, g, b, rfl⟩ := List.length_eq_three.mp hlength
      obtain _ | ⟨hr, _ | ⟨hg, _ | ⟨hb, _ | _⟩⟩⟩ := hvalues
      rw [cutComponent_pair hdigits "red" (by omega) (by simp) rfl hr hr,
        cutComponent_pair hdigits "green" (by omega) (by simp) rfl hg hg,
        cutComponent_pair hdigits "blue" (by omega) (by simp) rfl hb hb]
      rfl
    · next hlength =>
      match digits, hlength with
      | [r, r', g, g', b, b'], _ =>
        obtain _ | ⟨hr, _ | ⟨hr', _ | ⟨hg, _ | ⟨hg', _ | ⟨hb, _ | ⟨hb', _ | _⟩⟩⟩⟩⟩⟩ := hvalues
        rw [cutComponent_pair hdigits "red" (by omega) (by simp) rfl hr hr',
          cutComponent_pair hdigits "green" (by omega) (by simp) rfl hg hg',
          cutComponent_pair hdigits "blue" (by omega) (by simp) rfl hb hb']
        rfl
    · next hthree hsix =>
      have hnone : ofValues? values = none := by
        rw [← Option.not_isSome_iff_eq_none, isSome_ofValues?, ← hvalues.length_eq]
        exact fun hlength => hlength.elim hthree hsix
      rw [hnone]
      rfl

/-! ## The normal form -/

theorem toList_componentDigits (n : UInt8) :
    ∃ high low, componentDigits n = [high, low] ∧ IsPair high low n ∧
      high ∈ "0123456789ABCDEF".toList ∧ low ∈ "0123456789ABCDEF".toList := by
  have hn : n.toNat < 256 := n.toNat_lt
  have hupper : ∀ value < 16, upperHexDigit value ∈ "0123456789ABCDEF".toList := by decide
  have hhigh : n.toNat / 16 < 16 := by omega
  have hlow : n.toNat % 16 < 16 := by omega
  exact ⟨_, _, rfl,
    ⟨_, _, isHexDigit_upperHexDigit _ hhigh, isHexDigit_upperHexDigit _ hlow,
      (Nat.div_add_mod n.toNat 16).symm⟩,
    hupper _ hhigh, hupper _ hlow⟩

/-- Two digits come out in upper case. -/
theorem IsPair.componentDigits_eq {high low : Char} {n : UInt8} (h : IsPair high low n) :
    componentDigits n = [high.toUpper, low.toUpper] := by
  obtain ⟨a, b, hhigh, hlow, hn⟩ := h
  have ha : a < 16 := hhigh.1
  have hb : b < 16 := hlow.1
  have hdiv : n.toNat / 16 = a := by omega
  have hmod : n.toNat % 16 = b := by omega
  rw [componentDigits, hdiv, hmod, hhigh.toUpper_eq, hlow.toUpper_eq]

/-- **The normal form of a colour**: the six digits of any spelling in upper case. -/
theorem toList_toHtml_of_denotes (h : Denotes digits colour) :
    colour.toHtml.toList = (longForm digits).map Char.toUpper := by
  obtain ⟨r, r', g, g', b, b', hlong, hred, hgreen, hblue⟩ := h
  rw [toHtml, String.toList_ofList, hlong, hred.componentDigits_eq, hgreen.componentDigits_eq,
    hblue.componentDigits_eq]
  rfl

theorem denotes_toHtml (colour : Colour) : Denotes colour.toHtml.toList colour := by
  obtain ⟨r, r', hred, hr, -⟩ := toList_componentDigits colour.red
  obtain ⟨g, g', hgreen, hg, -⟩ := toList_componentDigits colour.green
  obtain ⟨b, b', hblue, hb, -⟩ := toList_componentDigits colour.blue
  refine ⟨r, r', g, g', b, b', ?_, hr, hg, hb⟩
  rw [toHtml, String.toList_ofList, hred, hgreen, hblue]
  rfl

/-- The normal form reads back behind at most one mark. -/
theorem parseHex_of_normal {mark : List Char} (hmark : mark = [] ∨ mark = ['#'])
    (htext : s.toList = mark ++ colour.toHtml.toList) : parseHex s = .ok colour := by
  refine parseHex_ok_iff_spells.mpr
    ⟨[], mark, colour.toHtml.toList, [], blank_nil, blank_nil, hmark, ?_, denotes_toHtml colour⟩
  rw [htext, List.nil_append, List.append_nil]

theorem parseHex_toHtml (colour : Colour) : parseHex colour.toHtml = .ok colour :=
  parseHex_of_normal (.inl rfl) (List.nil_append _).symm

theorem parseHex_text (colour : Colour) : parseHex colour.text = .ok colour :=
  parseHex_of_normal (.inr rfl) (by simp [text])

/-- The normal form is six digits in upper case. -/
theorem toHtml_digits (colour : Colour) :
    colour.toHtml.length = 6 ∧ ∀ d ∈ colour.toHtml.toList, d ∈ "0123456789ABCDEF".toList := by
  obtain ⟨r, r', hred, -, hr, hr'⟩ := toList_componentDigits colour.red
  obtain ⟨g, g', hgreen, -, hg, hg'⟩ := toList_componentDigits colour.green
  obtain ⟨b, b', hblue, -, hb, hb'⟩ := toList_componentDigits colour.blue
  have hdigits : colour.toHtml.toList = [r, r', g, g', b, b'] := by
    rw [toHtml, String.toList_ofList, hred, hgreen, hblue]
    rfl
  rw [← String.length_toList, hdigits]
  refine ⟨rfl, ?_⟩
  simp only [List.forall_mem_cons]
  exact ⟨hr, hr', hg, hg', hb, hb', List.forall_mem_nil _⟩

/-- **Colours have one grammar and one normal form.** A text is read as the colour that it
spells: three or six digits of base sixteen, each pair of them the value of a component and three
short for each of them twice, with at most one mark in front of them and blanks around it all.
Any other text is refused with a fault that carries the text as it is. A reader that cuts the
components out of the text by their offsets and reads each as an integer answers the same and
comes to no fault of its own. The normal form of a colour, with the mark or without it, reads
back, and it is the six digits of every spelling in upper case. -/
theorem hex_colours_have_one_grammar :
    (∀ s colour, parseHex s = .ok colour ↔ Spells s colour) ∧
    (∀ digits, (∃ colour, Denotes digits colour) ↔
      (digits.length = 3 ∨ digits.length = 6) ∧ ∀ d ∈ digits, ∃ v, IsHexDigit d v) ∧
    (∀ s, (¬ ∃ colour, Spells s colour) ↔ ∃ fault, parseHex s = .error (.invalidHex s fault)) ∧
    (∀ s, parseByOffsets s = (parseHex s).mapError .refused) ∧
    (∀ colour : Colour,
      parseHex colour.toHtml = .ok colour ∧ parseHex colour.text = .ok colour ∧
      colour.toHtml.length = 6 ∧
      ∀ d ∈ colour.toHtml.toList, d ∈ "0123456789ABCDEF".toList) ∧
    ∀ digits colour, Denotes digits colour →
      colour.toHtml.toList = (longForm digits).map Char.toUpper := by
  refine ⟨fun s colour => parseHex_ok_iff_spells, fun digits => exists_denotes_iff, fun s => ?_,
    parseByOffsets_eq, fun colour => ⟨parseHex_toHtml colour, parseHex_text colour,
      toHtml_digits colour⟩, fun digits colour => toList_toHtml_of_denotes⟩
  constructor
  · intro hnone
    refine (parseHex_ok_or_error s).resolve_left ?_
    rintro ⟨colour, hcolour⟩
    exact hnone ⟨colour, parseHex_ok_iff_spells.mp hcolour⟩
  · rintro ⟨fault, hfault⟩ ⟨colour, hcolour⟩
    cases (parseHex_ok_iff_spells.mpr hcolour).symm.trans hfault

/-- Blanks of any kind and one mark are left out, and three digits are doubled. A second mark and a
sign are no digits. -/
theorem marked_spelling_is_read :
    let colour : Colour := ⟨0xAA, 0xBB, 0xCC⟩
    let digits := ['a', 'B', 'c']
    (Denotes digits colour ∧ colour.toHtml.toList = (longForm digits).map Char.toUpper) ∧
      parseHex "\u2003#aBc\u0085" = .ok colour ∧
      (∃ fault, parseHex "##aBc" = .error (.invalidHex "##aBc" fault)) ∧
      ¬ ∃ colour, Spells "+F+F+F" colour := by
  intro colour digits
  obtain ⟨hread, -, hrefused, -, -, hnormal⟩ := hex_colours_have_one_grammar
  have ha : IsPair 'a' 'a' 0xAA := ⟨10, 10, by decide, by decide, rfl⟩
  have hb : IsPair 'B' 'B' 0xBB := ⟨11, 11, by decide, by decide, rfl⟩
  have hc : IsPair 'c' 'c' 0xCC := ⟨12, 12, by decide, by decide, rfl⟩
  have hdenotes : Denotes digits colour := ⟨_, _, _, _, _, _, rfl, ha, hb, hc⟩
  have hspells : Spells "\u2003#aBc\u0085" colour :=
    ⟨['\u2003'], ['#'], digits, ['\u0085'], List.forall_mem_singleton.mpr (by decide),
      List.forall_mem_singleton.mpr (by decide), .inr rfl, by decide, hdenotes⟩
  exact ⟨⟨hdenotes, hnormal digits colour hdenotes⟩, (hread _ _).mpr hspells,
    ⟨.notADigit '#', by decide⟩, (hrefused _).mpr ⟨.notADigit '+', by decide⟩⟩

end Colour

end Galley
