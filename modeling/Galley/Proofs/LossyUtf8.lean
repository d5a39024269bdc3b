/-
`Proofs/LossyUtf8.lean` -- ASCII bytes stand for themselves, whatever bytes are around them.

A byte below 0x80 is never part of a longer sequence. It ends one that has begun, as a
fault, and is then read as the character it is. The other way round, a character below
0x80 is never read from anything else: the ranges of the continuation bytes leave out
overlong forms, so what the machine can still reach from within a sequence lies above
ASCII. That is the invariant of the machine below.

Together they say that a text of bytes can be cut at an ASCII byte before it is decoded
or after, with the same parts. A text that is all ASCII is its bytes, and is read back from
them.
-/
import Galley.Text.Utf8
import Mathlib.Algebra.Group.Nat.Defs

set_option autoImplicit false

namespace Galley.Text.Utf8

/-! ## Runs of the machine -/

/-- What the machine yields for bytes from a state on. -/
def run : State → List UInt8 → List (Option Char)
  | state, [] => state.finish
  | state, b :: bytes => (step state b).1 ++ run (step state b).2 bytes

variable {state : State} {b : UInt8} {bytes : List UInt8}

/-- The machine gathers what it yields latest first. -/
theorem foldl_absorb (bytes : List UInt8) (scan : Scan) :
    ((bytes.foldl Scan.absorb scan).state.finish ++ (bytes.foldl Scan.absorb scan).done).reverse
      = scan.done.reverse ++ run scan.state bytes := by
  induction bytes generalizing scan with
  | nil =>
    -- At most one fault is left at the end, which has no order.
    have hfinish : scan.state.finish.reverse = scan.state.finish := by
      cases scan.state <;> rfl
    rw [List.foldl_nil, List.reverse_append, hfinish, run]
  | cons b bytes ih =>
    rw [List.foldl_cons, ih, run, Scan.absorb, List.reverse_append, List.reverse_reverse,
      List.append_assoc]

theorem scan_eq_run (bytes : List UInt8) : scan bytes = run .ready bytes :=
  (foldl_absorb bytes {}).trans (List.nil_append _)

/-! ## The invariant -/

/-- The code points that a state within a sequence can lead to lie outside ASCII and on one side
of the surrogates. The first of them is reached by the lowest bytes that are awaited, and behind the
last one lies the bound. -/
def State.Sound : State → Prop
  | .ready => True
  | .within missing low high value =>
    let first := (value * 64 + (low.toNat - 0x80)) * 64 ^ (missing - 1)
    let bound := (value * 64 + (high.toNat - 0x80) + 1) * 64 ^ (missing - 1)
    0x80 ≤ low.toNat ∧ 0x80 ≤ first ∧ (bound ≤ 0xD800 ∨ 0xE000 ≤ first ∧ bound ≤ 0x110000)

theorem sound_ready : State.ready.Sound := True.intro

theorem begin_ascii (h : b.toNat < 0x80) : begin b = ([some (Char.ofNat b.toNat)], .ready) := by
  have hb : b < 0x80 := h
  rw [begin, if_pos hb]

/-- A byte outside ASCII is a fault or begins a sequence. -/
theorem begin_high (h : 0x80 ≤ b.toNat) :
    begin b = ([none], .ready) ∨
      ∃ missing low high value, begin b = ([], .within missing low high value) ∧
        (State.within missing low high value).Sound := by
  have hascii : ¬ b < 0x80 := Nat.not_lt.mpr h
  rw [begin, if_neg hascii]
  by_cases hfault : b < 0xC2
  · exact .inl (if_pos hfault)
  rw [if_neg hfault]
  by_cases htwo : b < 0xE0
  · have hlow : 0xC2 ≤ b.toNat := Nat.not_lt.mp hfault
    have hhigh : b.toNat < 0xE0 := htwo
    refine .inr ⟨_, _, _, _, if_pos htwo, ?_⟩
    simp only [State.Sound, UInt8.reduceToNat]
    omega
  rw [if_neg htwo]
  by_cases hE0 : b = 0xE0
  · exact .inr ⟨_, _, _, _, if_pos hE0, by unfold State.Sound; decide⟩
  rw [if_neg hE0]
  by_cases hED : b = 0xED
  · exact .inr ⟨_, _, _, _, if_pos hED, by unfold State.Sound; decide⟩
  rw [if_neg hED]
  by_cases hthree : b < 0xF0
  · -- The surrogates begin with the byte that was left out just before.
    have hlow : 0xE0 ≤ b.toNat := Nat.not_lt.mp htwo
    have hhigh : b.toNat < 0xF0 := hthree
    have hE0 : b.toNat ≠ 0xE0 := fun heq => hE0 (UInt8.toNat_inj.mp heq)
    have hED : b.toNat ≠ 0xED := fun heq => hED (UInt8.toNat_inj.mp heq)
    refine .inr ⟨_, _, _, _, if_pos hthree, ?_⟩
    simp only [State.Sound, UInt8.reduceToNat]
    omega
  rw [if_neg hthree]
  by_cases hF0 : b = 0xF0
  · exact .inr ⟨_, _, _, _, if_pos hF0, by unfold State.Sound; decide⟩
  rw [if_neg hF0]
  by_cases hfour : b < 0xF4
  · have hlow : 0xF0 ≤ b.toNat := Nat.not_lt.mp hthree
    have hhigh : b.toNat < 0xF4 := hfour
    have hF0 : b.toNat ≠ 0xF0 := fun heq => hF0 (UInt8.toNat_inj.mp heq)
    refine .inr ⟨_, _, _, _, if_pos hfour, ?_⟩
    simp only [State.Sound, UInt8.reduceToNat]
    omega
  rw [if_neg hfour]
  by_cases hF4 : b = 0xF4
  · exact .inr ⟨_, _, _, _, if_pos hF4, by unfold State.Sound; decide⟩
  · exact .inl (if_neg hF4)

/-- What a byte outside ASCII leads to: faults and characters outside ASCII, and a sound state.
It leaves a trace, in what is yielded or in the state. -/
structure Foreign (result : List (Option Char) × State) : Prop where
  outside : ∀ c, some c ∈ result.1 → 0x80 ≤ c.toNat
  sound : result.2.Sound
  trace : result.1 ≠ [] ∨ result.2 ≠ .ready

theorem foreign_begin (h : 0x80 ≤ b.toNat) : Foreign (begin b) := by
  rcases begin_high h with hfault | ⟨missing, low, high, value, hbegin, hsound⟩
  · rw [hfault]
    exact ⟨fun c hc => by simp at hc, sound_ready, .inl (List.cons_ne_nil _ _)⟩
  · rw [hbegin]
    exact ⟨fun c hc => by simp at hc, hsound, .inr nofun⟩

/-- A sequence that goes on stays on its way to the same code points. -/
theorem sound_continue {missing value : Nat} {low high : UInt8}
    (h : (State.within missing low high value).Sound) (hmissing : ¬ missing ≤ 1)
    (hlow : low.toNat ≤ b.toNat) (hhigh : b.toNat ≤ high.toNat) :
    (State.within (missing - 1) 0x80 0xBF (value * 64 + (b.toNat - 0x80))).Sound := by
  obtain ⟨hascii, hfirst, hbound⟩ := h
  obtain ⟨k, rfl⟩ : ∃ k, missing = k + 2 := ⟨missing - 2, by omega⟩
  generalize hread : value * 64 + (b.toNat - 0x80) = read
  -- What is open before the byte is 64 times what is open after it.
  generalize hopen : 64 ^ (k + 2 - 1) = before at hfirst hbound
  have hpower : 64 * 64 ^ k = before := hopen ▸ Nat.pow_succ'.symm
  have hleast : (value * 64 + (low.toNat - 0x80)) * before ≤ read * before :=
    Nat.mul_le_mul_right _ (by omega)
  have hgreatest : (read + 1) * before ≤ (value * 64 + (high.toNat - 0x80) + 1) * before :=
    Nat.mul_le_mul_right _ (by omega)
  have hfirst' : (read * 64 + 0) * 64 ^ k = read * before := by
    rw [Nat.add_zero, Nat.mul_assoc, hpower]
  have hbound' : (read * 64 + 63 + 1) * 64 ^ k = (read + 1) * before := by
    rw [← hpower, ← Nat.mul_assoc, Nat.add_mul read 1 64]
  refine ⟨Nat.le_refl _, ?_, ?_⟩
  · show 0x80 ≤ (read * 64 + 0) * 64 ^ k
    omega
  · show (read * 64 + 63 + 1) * 64 ^ k ≤ 0xD800 ∨
      0xE000 ≤ (read * 64 + 0) * 64 ^ k ∧ (read * 64 + 63 + 1) * 64 ^ k ≤ 0x110000
    omega

theorem toNat_ofNat_of_isValid {n : Nat} (h : n.isValidChar) : (Char.ofNat n).toNat = n := by
  rw [Char.ofNat, dif_pos h]
  rfl

/-- A sequence that is complete is a character outside ASCII. -/
theorem toNat_complete {missing value : Nat} {low high : UInt8}
    (h : (State.within missing low high value).Sound) (hmissing : missing ≤ 1)
    (hlow : low.toNat ≤ b.toNat) (hhigh : b.toNat ≤ high.toNat) :
    0x80 ≤ (Char.ofNat (value * 64 + (b.toNat - 0x80))).toNat := by
  obtain ⟨-, hfirst, hbound⟩ := h
  have hpower : 64 ^ (missing - 1) = 1 := by
    rw [Nat.sub_eq_zero_of_le hmissing, Nat.pow_zero]
  rw [hpower, Nat.mul_one] at hfirst hbound
  rw [Nat.mul_one] at hbound
  have hvalid : (value * 64 + (b.toNat - 0x80)).isValidChar := by
    unfold Nat.isValidChar
    omega
  rw [toNat_ofNat_of_isValid hvalid]
  omega

theorem foreign_step (hstate : state.Sound) (h : 0x80 ≤ b.toNat) : Foreign (step state b) := by
  cases state with
  | ready => exact foreign_begin h
  | within missing low high value =>
    rw [step]
    split
    next hrange =>
      obtain ⟨hlow, hhigh⟩ := (Bool.and_eq_true_iff.mp hrange).imp of_decide_eq_true of_decide_eq_true
      dsimp only
      split
      next hmissing =>
        refine ⟨fun c hc => ?_, sound_ready, .inl (List.cons_ne_nil _ _)⟩
        rw [Option.some.inj (List.mem_singleton.mp hc)]
        exact toNat_complete hstate hmissing hlow hhigh
      next hmissing =>
        exact ⟨nofun, sound_continue hstate hmissing hlow hhigh, .inr nofun⟩
    next hrange =>
      -- The sequence is a fault, and the byte is read as one between two characters.
      obtain ⟨houtside, hsound, -⟩ := foreign_begin h
      refine ⟨fun c hc => houtside c ?_, hsound, .inl (List.cons_ne_nil _ _)⟩
      simpa using hc

/-- An ASCII byte is read as itself, behind the fault of a sequence that it ends. -/
theorem step_ascii (hstate : state.Sound) (h : b.toNat < 0x80) :
    step state b = (state.finish ++ [some (Char.ofNat b.toNat)], .ready) := by
  cases state with
  | ready => exact begin_ascii h
  | within missing low high value =>
    have hrange : ¬ low ≤ b := Nat.not_le.mpr (Nat.lt_of_lt_of_le h hstate.1)
    simp [step, hrange, begin_ascii h, State.finish]

theorem sound_step (hstate : state.Sound) : (step state b).2.Sound := by
  by_cases h : b.toNat < 0x80
  · rw [step_ascii hstate h]
    exact sound_ready
  · exact (foreign_step hstate (Nat.not_lt.mp h)).sound

/-! ## Bytes before and after an ASCII byte -/

variable {before after : List UInt8}

/-- An ASCII byte separates what is before it from what is behind it. -/
theorem run_append_ascii (hstate : state.Sound) (h : b.toNat < 0x80) :
    run state (before ++ b :: after)
      = run state before ++ some (Char.ofNat b.toNat) :: run .ready after := by
  induction before generalizing state with
  | nil => simp [run, step_ascii hstate h]
  | cons first before ih =>
    rw [List.cons_append, run, run, ih (sound_step hstate), List.append_assoc]

theorem toNat_ofNat_ascii (h : b.toNat < 0x80) : (Char.ofNat b.toNat).toNat = b.toNat :=
  toNat_ofNat_of_isValid (.inl (Nat.lt_trans h (by decide)))

theorem none_of_mem_finish {c : Option Char} (h : c ∈ state.finish) : c = none := by
  cases state with
  | ready => cases h
  | within => exact List.mem_singleton.mp h

/-- A character of ASCII is read from its byte only. The induction is on the bytes; the invariant
tells that a byte outside ASCII completes no such character. -/
theorem mem_of_mem_run (hstate : state.Sound) (h : b.toNat < 0x80)
    (hmem : some (Char.ofNat b.toNat) ∈ run state bytes) : b ∈ bytes := by
  induction bytes generalizing state with
  | nil => exact absurd (none_of_mem_finish hmem) (Option.some_ne_none _)
  | cons first bytes ih =>
    rw [run, List.mem_append] at hmem
    rcases hmem with hfirst | hrest
    · have hsame : first.toNat = b.toNat := by
        by_cases hascii : first.toNat < 0x80
        · rw [step_ascii hstate hascii, List.mem_append, List.mem_singleton] at hfirst
          rcases hfirst with hfault | hchar
          · exact absurd (none_of_mem_finish hfault) (Option.some_ne_none _)
          · rw [← toNat_ofNat_ascii h, Option.some.inj hchar, toNat_ofNat_ascii hascii]
        · have houtside := (foreign_step hstate (Nat.not_lt.mp hascii)).outside _ hfirst
          rw [toNat_ofNat_ascii h] at houtside
          exact absurd houtside (Nat.not_le.mpr h)
      exact UInt8.toNat_inj.mp hsame ▸ List.mem_cons_self
    · exact List.mem_cons_of_mem _ (ih (sound_step hstate) hrest)

/-- Bytes leave a trace: what they yield is empty only if they are. -/
theorem run_eq_nil_iff (hstate : state.Sound) :
    run state bytes = [] ↔ state = .ready ∧ bytes = [] := by
  refine ⟨fun hnil => ?_, fun ⟨hready, hbytes⟩ => hready ▸ hbytes ▸ rfl⟩
  induction bytes generalizing state with
  | nil =>
    cases state with
    | ready => exact ⟨rfl, rfl⟩
    | within => cases hnil
  | cons first bytes ih =>
    obtain ⟨hfirst, hrest⟩ := List.append_eq_nil_iff.mp hnil
    obtain ⟨hready, -⟩ := ih (sound_step hstate) hrest
    by_cases hascii : first.toNat < 0x80
    · rw [step_ascii hstate hascii] at hfirst
      simp at hfirst
    · rcases (foreign_step hstate (Nat.not_lt.mp hascii)).trace with htrace | htrace
      · exact absurd hfirst htrace
      · exact absurd hready htrace

/-! ## Texts -/

theorem toList_decodeLossy (bytes : List UInt8) :
    (decodeLossy bytes).toList = (run .ready bytes).map fun c => c.getD replacement := by
  rw [decodeLossy, String.toList_ofList, scan_eq_run]

/-- **A text can be cut at an ASCII byte**, before it is decoded or after. -/
theorem decodeLossy_append_ascii (before after : List UInt8) (h : b.toNat < 0x80) :
    (decodeLossy (before ++ b :: after)).toList
      = (decodeLossy before).toList ++ Char.ofNat b.toNat :: (decodeLossy after).toList := by
  simp only [toList_decodeLossy, run_append_ascii sound_ready h, List.map_append, List.map_cons,
    Option.getD_some]

/-- **A character of ASCII is in a text** exactly when its byte is in the bytes. -/
theorem mem_decodeLossy_iff (h : b.toNat < 0x80) :
    Char.ofNat b.toNat ∈ (decodeLossy bytes).toList ↔ b ∈ bytes := by
  constructor
  · intro hmem
    rw [toList_decodeLossy, List.mem_map] at hmem
    obtain ⟨c | c, hc, hchar⟩ := hmem
    · have hnat := toNat_ofNat_ascii h
      rw [← hchar] at hnat
      have hreplacement : replacement.toNat = 0xFFFD := by decide
      rw [Option.getD_none, hreplacement] at hnat
      omega
    · exact mem_of_mem_run sound_ready h (by rwa [← hchar])
  · intro hmem
    obtain ⟨front, back, rfl⟩ := List.append_of_mem hmem
    rw [decodeLossy_append_ascii _ _ h]
    exact List.mem_append_right _ List.mem_cons_self

theorem toList_decodeLossy_eq_nil_iff : (decodeLossy bytes).toList = [] ↔ bytes = [] := by
  rw [toList_decodeLossy, List.map_eq_nil_iff, run_eq_nil_iff sound_ready]
  exact and_iff_right rfl

/-- A text starts with a character of ASCII exactly when the bytes start with its byte. -/
theorem head?_decodeLossy_iff (h : b.toNat < 0x80) :
    (decodeLossy bytes).toList.head? = some (Char.ofNat b.toNat) ↔ bytes.head? = some b := by
  constructor
  · intro hhead
    have hmem : b ∈ bytes := (mem_decodeLossy_iff h).mp (List.mem_of_mem_head? hhead)
    -- The first of these bytes is the first character, or else one of them were before it.
    obtain ⟨front, back, rfl, hfront⟩ := List.eq_append_cons_of_mem hmem
    rw [decodeLossy_append_ascii _ _ h] at hhead
    by_cases hempty : front = []
    · rw [hempty]
      rfl
    · have hne : (decodeLossy front).toList ≠ [] := by
        rwa [Ne, toList_decodeLossy_eq_nil_iff]
      rw [List.head?_append, List.head?_eq_some_head hne, Option.some_or] at hhead
      have hearlier : b ∈ front :=
        (mem_decodeLossy_iff h).mp (Option.some.inj hhead ▸ List.head_mem hne)
      exact absurd hearlier hfront
  · intro hhead
    obtain ⟨rest, rfl⟩ := List.head?_eq_some_iff.mp hhead
    have hcut := decodeLossy_append_ascii [] rest h
    rw [List.nil_append, toList_decodeLossy_eq_nil_iff.mpr rfl, List.nil_append] at hcut
    rw [hcut, List.head?_cons]

/-- A text ends with a character of ASCII only if the bytes end with its byte. -/
theorem getLast?_of_decodeLossy (h : b.toNat < 0x80)
    (hlast : (decodeLossy bytes).toList.getLast? = some (Char.ofNat b.toNat)) :
    bytes.getLast? = some b := by
  have hmem : b ∈ bytes := (mem_decodeLossy_iff h).mp (List.mem_of_getLast? hlast)
  -- The last of these bytes, which is the first one from behind.
  obtain ⟨back, front, hsplit, hback⟩ := List.eq_append_cons_of_mem (List.mem_reverse.mpr hmem)
  obtain rfl : bytes = front.reverse ++ b :: back.reverse := by
    rw [← List.reverse_reverse bytes, hsplit]
    simp
  by_cases hempty : back = []
  · simp [hempty]
  · have hne : (decodeLossy back.reverse).toList ≠ [] := by
      rw [Ne, toList_decodeLossy_eq_nil_iff]
      simpa using hempty
    rw [decodeLossy_append_ascii _ _ h, List.getLast?_append, List.getLast?_cons_of_ne_nil hne,
      List.getLast?_eq_some_getLast hne, Option.some_or] at hlast
    have hlater : b ∈ back.reverse :=
      (mem_decodeLossy_iff h).mp (Option.some.inj hlast ▸ List.getLast_mem hne)
    exact absurd (List.mem_reverse.mp hlater) hback

/-! ## ASCII text -/

theorem encodeChar_ascii {c : Char} (h : c.toNat < 0x80) :
    String.utf8EncodeChar c = [UInt8.ofNat c.toNat] :=
  if_pos (Nat.le_of_lt_succ h)

theorem run_encode_ascii {cs : List Char} (h : ∀ c ∈ cs, c.toNat < 0x80) :
    run .ready (cs.flatMap String.utf8EncodeChar) = cs.map some := by
  induction cs with
  | nil => rfl
  | cons c cs ih =>
    obtain ⟨hc, hcs⟩ := List.forall_mem_cons.mp h
    have hbyte : (UInt8.ofNat c.toNat).toNat = c.toNat := by
      rw [UInt8.toNat_ofNat', Nat.mod_eq_of_lt (Nat.lt_trans hc (by decide))]
    have hstep : step .ready (UInt8.ofNat c.toNat) = ([some c], .ready) := by
      rw [step, begin_ascii (by rwa [hbyte]), hbyte, Char.ofNat_toNat]
    rw [List.flatMap_cons, encodeChar_ascii hc, List.cons_append, List.nil_append, run, hstep,
      ih hcs]
    rfl

/-- Text of ASCII is read back from its bytes. -/
theorem decode?_encode_ascii {s : String} (h : ∀ c ∈ s.toList, c.toNat < 0x80) :
    decode? (encode s) = some s := by
  have hscan : scan (encode s) = s.toList.map some := (scan_eq_run _).trans (run_encode_ascii h)
  simp [decode?, hscan]

end Galley.Text.Utf8
