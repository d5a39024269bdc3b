/-
`Proofs/JsonScalars.lean` -- strings and numbers read back from their JSON text.

Printer and reader share no table. What the printer escapes is a chain of comparisons with a
letter or four digits at its end, and what the reader knows is a chain in the other
direction, over units that become characters only after the closing quote. So the strings go
character by character: each is one unit again, whichever way it is written. A number is
read in four parts, and each part ends where the next one begins, since what may follow is
neither a digit nor a point nor an exponent.
-/
import Galley.Json.Parser
import Galley.Json.Printer

set_option autoImplicit false

namespace Galley.Json

/-! ## Strings -/

/-- The characters that are escaped by a letter, each with its letter. -/
def shortEscapes : List (Char × Char) :=
  [('"', '"'), ('\\', '\\'), ('\n', 'n'), ('\r', 'r'), ('\t', 't'), ('\x08', 'b'), ('\x0c', 'f')]

/-- The reader knows the letters of the printer. -/
theorem shortEscapes_known : ∀ pair ∈ shortEscapes,
    escape pair.1 = ['\\', pair.2] ∧ pair.2 ≠ 'u' ∧ shortEscape? pair.2 = some pair.1 := by
  decide

theorem readUnits_short {letter c : Char} (hletter : letter ≠ 'u')
    (h : shortEscape? letter = some c) (units : List Nat) (rest : List Char) :
    readUnits units ('\\' :: letter :: rest) = readUnits (c.toNat :: units) rest := by
  rw [readUnits.eq_def]
  split
  · next heq => cases heq
  · next heq => cases heq
  · next heq =>
    cases heq
    exact absurd rfl hletter
  · next heq =>
    cases heq
    rw [h]
  · next hbackslash heq =>
    cases heq
    exact (hbackslash _ _ rfl rfl).elim

theorem hexValue?_lowerHexDigit : ∀ value < 16,
    Text.hexValue? (Text.lowerHexDigit value) = some value := by
  decide

/-- A control character comes back from its four digits. -/
theorem readUnits_control {c : Char} (h : c.toNat < 0x20) (units : List Nat) (rest : List Char) :
    readUnits units
        ('\\' :: 'u' :: '0' :: '0' :: Text.lowerHexDigit (c.toNat / 16)
          :: Text.lowerHexDigit (c.toNat % 16) :: rest)
      = readUnits (c.toNat :: units) rest := by
  have hhigh := hexValue?_lowerHexDigit (c.toNat / 16) (by omega)
  have hlow := hexValue?_lowerHexDigit (c.toNat % 16) (by omega)
  have hquad : hexQuad? '0' '0' (Text.lowerHexDigit (c.toNat / 16))
      (Text.lowerHexDigit (c.toNat % 16)) = some c.toNat := by
    have hzero : Text.hexValue? '0' = some 0 := rfl
    have hsum : 0 * 4096 + 0 * 256 + c.toNat / 16 * 16 + c.toNat % 16 = c.toNat := by omega
    simp only [hexQuad?, hzero, hhigh, hlow, Option.bind_eq_bind, Option.bind_some, hsum,
      Option.pure_def]
  rw [readUnits, hquad]

/-- A character that needs no escape stands for itself. -/
theorem readUnits_plain {c : Char} (hquote : c ≠ '"') (hbackslash : c ≠ '\\')
    (h : ¬ c.toNat < 0x20) (units : List Nat) (rest : List Char) :
    readUnits units (c :: rest) = readUnits (c.toNat :: units) rest := by
  rw [readUnits.eq_def]
  split
  · next heq => cases heq
  · next heq =>
    cases heq
    exact absurd rfl hquote
  · next heq =>
    cases heq
    exact absurd rfl hbackslash
  · next heq =>
    cases heq
    exact absurd rfl hbackslash
  · next heq =>
    cases heq
    rw [if_neg h]

/-- **An escaped character is one unit.** Seven characters have a letter, the other control
characters have four digits, and the rest stand for themselves. -/
theorem readUnits_escape (c : Char) (units : List Nat) (rest : List Char) :
    readUnits units (escape c ++ rest) = readUnits (c.toNat :: units) rest := by
  by_cases hshort : c ∈ shortEscapes.map Prod.fst
  · obtain ⟨pair, hpair, rfl⟩ := List.mem_map.mp hshort
    obtain ⟨hescape, hletter, hknown⟩ := shortEscapes_known pair hpair
    rw [hescape]
    exact readUnits_short hletter hknown units rest
  · have hne : ∀ d ∈ shortEscapes.map Prod.fst, c ≠ d := by
      rintro d hd rfl
      exact hshort hd
    simp only [shortEscapes, List.map_cons, List.map_nil, List.forall_mem_cons] at hne
    obtain ⟨hquote, hbackslash, hfeed, hreturn, htab, hback, hform, -⟩ := hne
    rw [escape, if_neg hquote, if_neg hbackslash, if_neg hfeed, if_neg hreturn, if_neg htab,
      if_neg hback, if_neg hform]
    by_cases hcontrol : c.toNat < 0x20
    · rw [if_pos hcontrol]
      exact readUnits_control hcontrol units rest
    · rw [if_neg hcontrol]
      exact readUnits_plain hquote hbackslash hcontrol units rest

theorem readUnits_quoted (cs : List Char) (units : List Nat) (rest : List Char) :
    readUnits units (cs.flatMap escape ++ '"' :: rest)
      = some (units.reverse ++ cs.map Char.toNat, rest) := by
  induction cs generalizing units with
  | nil => rw [List.flatMap_nil, List.nil_append, readUnits, List.map_nil, List.append_nil]
  | cons c cs ih =>
    rw [List.flatMap_cons, List.append_assoc, readUnits_escape, ih, List.reverse_cons,
      List.append_assoc, List.singleton_append, List.map_cons]

/-- No character is half of a surrogate pair. -/
theorem not_surrogate (c : Char) : isHigh c.toNat = false ∧ isLow c.toNat = false := by
  have hvalid : c.toNat < 0xD800 ∨ 0xDFFF < c.toNat ∧ c.toNat < 0x110000 := c.valid
  simp only [isHigh, isLow, Bool.and_eq_false_iff, decide_eq_false_iff_not]
  omega

/-- So the units of a text are its characters again. -/
theorem joinPairs_toNat (cs done : List Char) :
    joinPairs done (cs.map Char.toNat) = some (done.reverse ++ cs) := by
  induction cs generalizing done with
  | nil => rw [List.map_nil, joinPairs, List.append_nil]
  | cons c cs ih =>
    obtain ⟨hhigh, hlow⟩ := not_surrogate c
    cases cs with
    | nil =>
      simp [joinPairs, hhigh, hlow, Char.ofNat_toNat]
    | cons d cs =>
      have hstep : joinPairs done (c.toNat :: d.toNat :: cs.map Char.toNat)
          = joinPairs (c :: done) ((d :: cs).map Char.toNat) := by
        rw [joinPairs, hhigh, hlow, Char.ofNat_toNat]
        rfl
      rw [List.map_cons, List.map_cons, hstep, ih, List.reverse_cons, List.append_assoc,
        List.singleton_append]

/-- **Strings.** A quoted text is read back after its opening quote, and so is the string that
has none. -/
theorem readString_quoteText (content : Option String) (rest : List Char) :
    ∃ inner, (quoteText content).toList = '"' :: inner ∧
      readString (inner ++ rest) = some (content, rest) := by
  cases content with
  | none =>
    -- What is written is the first half of a pair, which no text has.
    have hquad : hexQuad? 'd' '8' '0' '0' = some 0xD800 := by decide
    have hunits : readUnits [] ('\\' :: 'u' :: 'd' :: '8' :: '0' :: '0' :: '"' :: rest)
        = some ([0xD800], rest) := by
      rw [readUnits, hquad]
      exact readUnits_quoted [] [0xD800] rest
    have hjoin : joinPairs [] [0xD800] = none := by decide
    refine ⟨['\\', 'u', 'd', '8', '0', '0', '"'], by decide, ?_⟩
    rw [readString]
    simp only [List.cons_append, List.nil_append, hunits, Option.map_some, hjoin, Option.map_none]
  | some s =>
    refine ⟨s.toList.flatMap escape ++ ['"'], ?_, ?_⟩
    · rw [quoteText, quote, String.toList_ofList, List.cons_append]
    · have hunits := readUnits_quoted s.toList [] rest
      have hjoin := joinPairs_toNat s.toList []
      rw [List.reverse_nil, List.nil_append] at hunits hjoin
      rw [readString, List.append_assoc, List.singleton_append, hunits, Option.map_some]
      simp only [hjoin, Option.map_some, String.ofList_toList]

/-! ## Numbers -/

/-- The number is spelt by the grammar: digits before the point without a needless zero in
front, digits or nothing after it, and digits in an exponent. -/
structure Number.WellSpelt (n : Number) : Prop where
  whole : n.whole ≠ []
  digits : ∀ c ∈ n.whole ++ n.fraction, c.isDigit = true
  leading : n.whole.head? = some '0' → n.whole = ['0']
  exponent : ∀ e ∈ n.exponent, e.digits ≠ [] ∧ ∀ c ∈ e.digits, c.isDigit = true

/-- What may follow a value in a compact text: nothing, or what goes on with an array or an
object. -/
def Follows (rest : List Char) : Prop := ∀ c ∈ rest.head?, c = ',' ∨ c = ']' ∨ c = '\x7d'

theorem isDigit_of_follows {rest : List Char} (h : Follows rest) :
    ∀ c ∈ rest.head?, c.isDigit = false := by
  intro c hc
  rcases h c hc with rfl | rfl | rfl <;> decide

theorem readDigits_append {ds rest : List Char} (hne : ds ≠ []) (hds : ∀ c ∈ ds, c.isDigit = true)
    (hrest : ∀ c ∈ rest.head?, c.isDigit = false) : readDigits (ds ++ rest) = some (ds, rest) := by
  have htake : rest.takeWhile Char.isDigit = [] := by
    cases rest with
    | nil => rfl
    | cons c rest => exact List.takeWhile_cons_of_neg (by simp [hrest c rfl])
  have hdrop : rest.dropWhile Char.isDigit = rest := by
    cases rest with
    | nil => rfl
    | cons c rest => exact List.dropWhile_cons_of_neg (by simp [hrest c rfl])
  rw [readDigits, List.takeWhile_append_of_pos hds, List.dropWhile_append_of_pos hds, htake, hdrop,
    List.append_nil]
  exact if_neg (by simpa using hne)

/-- The digits before the point: a lone zero is read as one, and others start with another
digit. -/
theorem readWhole_append {ds rest : List Char} (hne : ds ≠ []) (hds : ∀ c ∈ ds, c.isDigit = true)
    (hleading : ds.head? = some '0' → ds = ['0'])
    (hrest : ∀ c ∈ rest.head?, c.isDigit = false) : readWhole (ds ++ rest) = some (ds, rest) := by
  by_cases hzero : ds.head? = some '0'
  · obtain rfl := hleading hzero
    have hhead : (rest.head?.map Char.isDigit).getD false = false := by
      cases rest with
      | nil => rfl
      | cons c rest => exact hrest c rfl
    rw [List.singleton_append, readWhole, hhead]
    rfl
  · have hother : readWhole (ds ++ rest) = readDigits (ds ++ rest) := by
      rw [readWhole.eq_def]
      split
      · next heq =>
        cases ds with
        | nil => exact absurd rfl hne
        | cons c ds =>
          cases heq
          exact absurd rfl hzero
      · rfl
    rw [hother, readDigits_append hne hds hrest]

namespace Number

/-- The point with the digits after it, if there are any. -/
def fractionText (n : Number) : List Char := if n.fraction.isEmpty then [] else '.' :: n.fraction

/-- The exponent as it is spelt, if there is one. -/
def exponentText (n : Number) : List Char :=
  match n.exponent with
  | none => []
  | some e => 'e' :: (if e.negative then ['-'] else []) ++ e.digits

theorem toList_spell (n : Number) :
    n.spell.toList
      = (if n.negative then ['-'] else []) ++ n.whole ++ n.fractionText ++ n.exponentText := by
  rw [spell, String.toList_ofList]
  rfl

variable {n : Number} {rest : List Char}

theorem ne_of_isDigit {c d : Char} (hc : c.isDigit = true) (hd : d.isDigit = false) : c ≠ d := by
  rintro rfl
  cases hc.symm.trans hd

theorem readExponent_exponentText (h : n.WellSpelt) (hrest : Follows rest) :
    readExponent (n.exponentText ++ rest) = some (n.exponent, rest) := by
  rw [exponentText]
  cases hexponent : n.exponent with
  | none =>
    cases rest with
    | nil => rfl
    | cons c rest =>
      have hc : ¬ (decide (c = 'e') || decide (c = 'E')) = true := by
        rcases hrest c rfl with rfl | rfl | rfl <;> decide
      exact if_neg hc
  | some e =>
    obtain ⟨hne, hdigits⟩ := h.exponent e hexponent
    have hread := readDigits_append hne hdigits (isDigit_of_follows hrest)
    obtain ⟨negative, digits⟩ := e
    cases negative with
    | true => simp [readExponent, hread]
    | false =>
      cases digits with
      | nil => exact absurd rfl hne
      | cons d digits =>
        -- The digits do not begin with a sign.
        have hd := hdigits d List.mem_cons_self
        have hplus : d ≠ '+' := ne_of_isDigit hd (by decide)
        have hminus : d ≠ '-' := ne_of_isDigit hd (by decide)
        rw [List.cons_append] at hread
        simp [readExponent, hread, hplus, hminus]

/-- What follows the digits before the point is no digit. -/
theorem head_exponentText (n : Number) (hrest : Follows rest) :
    ∀ c ∈ (n.exponentText ++ rest).head?, c.isDigit = false ∧ c ≠ '.' := by
  rw [exponentText]
  cases n.exponent with
  | none =>
    intro c hc
    rcases hrest c hc with rfl | rfl | rfl <;> decide
  | some e =>
    intro c hc
    cases hc
    decide

theorem readFraction_fractionText (h : n.WellSpelt) (hrest : Follows rest) :
    readFraction (n.fractionText ++ (n.exponentText ++ rest))
      = some (n.fraction, n.exponentText ++ rest) := by
  have hhead := n.head_exponentText hrest
  rw [fractionText]
  by_cases hempty : n.fraction = []
  · rw [hempty, List.isEmpty_nil, if_pos rfl, List.nil_append]
    generalize n.exponentText ++ rest = cs at hhead
    cases cs with
    | nil => rfl
    | cons c cs =>
      have hpoint := (hhead c rfl).2
      simp [readFraction, hpoint]
  · have hdigits : ∀ c ∈ n.fraction, c.isDigit = true :=
      fun c hc => h.digits c (List.mem_append_right _ hc)
    rw [if_neg (by simpa using hempty), List.cons_append, readFraction]
    exact readDigits_append hempty hdigits fun c hc => (hhead c hc).1

theorem head_fractionText (n : Number) (hrest : Follows rest) :
    ∀ c ∈ (n.fractionText ++ (n.exponentText ++ rest)).head?, c.isDigit = false := by
  rw [fractionText]
  split
  · exact fun c hc => (n.head_exponentText hrest c hc).1
  · intro c hc
    cases hc
    decide

/-- **Numbers.** A number that is spelt by the grammar is read as it is spelt. -/
theorem readNumber_spell (h : n.WellSpelt) (hrest : Follows rest) :
    readNumber (n.spell.toList ++ rest) = some (n, rest) := by
  have hwhole : ∀ c ∈ n.whole, c.isDigit = true :=
    fun c hc => h.digits c (List.mem_append_left _ hc)
  have hread := readWhole_append h.whole hwhole h.leading (n.head_fractionText hrest)
  have hfraction := readFraction_fractionText h hrest
  have hexponent := readExponent_exponentText h hrest
  have htext : n.spell.toList ++ rest
      = (if n.negative then ['-'] else [])
        ++ (n.whole ++ (n.fractionText ++ (n.exponentText ++ rest))) := by
    rw [toList_spell]
    simp only [List.append_assoc]
  obtain ⟨negative, whole, fraction, exponent⟩ := n
  rw [htext]
  cases negative with
  | true => simp [readNumber, hread, hfraction, hexponent]
  | false =>
    cases whole with
    | nil => exact absurd rfl h.whole
    | cons d whole =>
      have hminus : d ≠ '-' := ne_of_isDigit (hwhole d List.mem_cons_self) (by decide)
      rw [List.cons_append] at hread
      simp [readNumber, hread, hfraction, hexponent, hminus]

end Number

end Galley.Json
