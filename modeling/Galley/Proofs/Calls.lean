/-
`Proofs/Calls.lean` -- calls and definitions of commands read back as written.

A typesetter reads a call from the left: the backslash, all the letters that follow, and then
a group for each parameter, up to the brace that closes it. What is written reads back in this
way whatever follows it. The name ends at a brace, also if there is no argument, and an
argument ends at the brace that was put behind it, as long as its own braces are balanced.

Whether a brace behind a backslash opens or closes a group is left to the reader of the text.
Plain counting takes it for a brace, and a typesetter for a character. A balanced text is
meant in the same way each time, so both read the same call.

A definition has the name, the parameters and the body one after the other. The name is
letters only, and the parameters end at the first brace, which no parameter is written with.
So the three can be told apart even though a body may contain anything.
-/
import Galley.Proofs.Braces
import Galley.Proofs.ControlSequences

set_option autoImplicit false

namespace Galley

namespace Tex

/-! ## Braces that count -/

/-- Which braces open and close groups. -/
inductive BraceRule where
  /-- All of them. -/
  | every
  /-- Those that no backslash stands in front of; the character behind a backslash belongs to
  it. -/
  | unescaped
  deriving DecidableEq, Repr

namespace BraceRule

/-- The depth of open groups after one more character, and whether a backslash takes the next
one. Nothing is left once a group is closed that was not opened. -/
def step (rule : BraceRule) (state : Nat × Bool) (c : Char) : Option (Nat × Bool) :=
  if state.2 then some (state.1, false)
  else if c = '\\' then some (state.1, rule = .unescaped)
  else (braceStep state.1 c).map fun depth => (depth, false)

/-- The state after characters that begin in a state. -/
def scan (rule : BraceRule) (state : Nat × Bool) (cs : List Char) : Option (Nat × Bool) :=
  cs.foldlM rule.step state

/-- The text closes the groups that it opens and no others, and leaves no backslash open. -/
def Balanced (rule : BraceRule) (s : String) : Prop :=
  rule.scan (0, false) s.toList = some (0, false)

instance (rule : BraceRule) (s : String) : Decidable (rule.Balanced s) :=
  inferInstanceAs (Decidable (_ = _))

variable {rule : BraceRule} {state : Nat × Bool} {cs : List Char}

theorem scan_cons (rule : BraceRule) (state : Nat × Bool) (c : Char) (cs : List Char) :
    rule.scan state (c :: cs) = (rule.step state c).bind fun next => rule.scan next cs := rfl

/-- If every brace counts, a backslash is a character like others. -/
theorem scan_every (n : Nat) (cs : List Char) :
    BraceRule.every.scan (n, false) cs = (Tex.scan n cs).map fun depth => (depth, false) := by
  induction cs generalizing n with
  | nil => rfl
  | cons c cs ih =>
    rw [scan_cons, Tex.scan_cons, step, if_neg Bool.false_ne_true]
    by_cases hc : c = '\\'
    · have hbrace : braceStep n c = some n := braceStep_of_ne (by rw [hc]; decide) n
      rw [if_pos hc, hbrace]
      exact ih n
    · rw [if_neg hc]
      cases braceStep n c with
      | none => rfl
      | some depth => exact ih depth

/-- If every brace counts, a text is balanced when its prefixes and its totals say so. -/
theorem balanced_every_iff {s : String} : BraceRule.every.Balanced s ↔ Tex.Balanced s := by
  rw [Balanced, scan_every, balanced_iff, Option.map_eq_some_iff]
  simp [depth]

/-- The only character that cannot be read is a brace that closes a group never opened. -/
theorem step_eq_none_iff {c : Char} :
    rule.step state c = none ↔ state = (0, false) ∧ c = '\x7d' := by
  obtain ⟨depth, escaped⟩ := state
  cases escaped with
  | true => simp [step]
  | false =>
    by_cases hc : c = '\\'
    · simp [step, hc]
    · rw [step, if_neg Bool.false_ne_true, if_neg hc, Option.map_eq_none_iff, braceStep]
      by_cases hopen : c = '\x7b'
      · simp [hopen]
      · by_cases hclose : c = '\x7d'
        · by_cases hdepth : depth = 0 <;> simp [hclose, hdepth]
        · simp [hopen, hclose]

end BraceRule

/-! ## Reading a call -/

/-- Reads up to the brace that closes the group which is read, and answers what stands before
and behind that brace. -/
def readGroup? (rule : BraceRule) (state : Nat × Bool) :
    List Char → Option (List Char × List Char)
  | [] => none
  | c :: cs =>
    match rule.step state c with
    | none => some ([], cs)
    | some next => (readGroup? rule next cs).map fun found => (c :: found.1, found.2)

/-- Reads so many groups, one right behind the other. -/
def readGroups? (rule : BraceRule) : Nat → List Char → Option (List String × List Char)
  | 0, cs => some ([], cs)
  | n + 1, '\x7b' :: cs =>
    (readGroup? rule (0, false) cs).bind fun found =>
      (readGroups? rule n found.2).map fun others => (String.ofList found.1 :: others.1, others.2)
  | _ + 1, _ => none

/-- Reads a control word: a backslash and all the letters behind it. -/
def readWord? (letters : Letters) : List Char → Option (String × List Char)
  | '\\' :: cs => some (String.ofList (cs.takeWhile letters.mem), cs.dropWhile letters.mem)
  | _ => none

/-- Reads a call of a command with so many parameters: its control word and a group for each
parameter. A word without parameters is ended by an empty group, which is no argument. -/
def readCall? (letters : Letters) (rule : BraceRule) (arity : Nat) (s : String) :
    Option (String × List String × String) :=
  (readWord? letters s.toList).bind fun word =>
    match arity, readGroups? rule (max 1 arity) word.2 with
    | 0, some ([""], rest) => some (word.1, [], String.ofList rest)
    | _ + 1, some (groups, rest) => some (word.1, groups, String.ofList rest)
    | _, _ => none

section Reading

variable {letters : Letters} {rule : BraceRule} {state : Nat × Bool}

/-- A balanced text is read up to the brace behind it. The induction is over every state that
the text may begin in, since its groups may be open there. -/
theorem readGroup?_of_scan {inside : List Char} (h : rule.scan state inside = some (0, false))
    (rest : List Char) :
    readGroup? rule state (inside ++ '\x7d' :: rest) = some (inside, rest) := by
  induction inside generalizing state with
  | nil =>
    have hstep : rule.step state '\x7d' = none :=
      BraceRule.step_eq_none_iff.mpr ⟨Option.some.inj h, rfl⟩
    rw [List.nil_append, readGroup?, hstep]
  | cons c inside ih =>
    rw [BraceRule.scan_cons] at h
    obtain ⟨next, hstep, hscan⟩ := Option.bind_eq_some_iff.mp h
    rw [List.cons_append, readGroup?, hstep]
    simp only [ih hscan, Option.map_some]

/-- Nothing else is read. -/
theorem scan_of_readGroup? {cs inside rest : List Char}
    (h : readGroup? rule state cs = some (inside, rest)) :
    rule.scan state inside = some (0, false) ∧ cs = inside ++ '\x7d' :: rest := by
  induction cs generalizing state inside with
  | nil => cases h
  | cons c cs ih =>
    rw [readGroup?] at h
    cases hstep : rule.step state c with
    | none =>
      -- Only the brace that closes the group has no next state.
      obtain ⟨rfl, rfl⟩ := BraceRule.step_eq_none_iff.mp hstep
      rw [hstep] at h
      cases h
      exact ⟨rfl, rfl⟩
    | some next =>
      rw [hstep] at h
      obtain ⟨⟨before, behind⟩, hfound, hpair⟩ := Option.map_eq_some_iff.mp h
      cases hpair
      obtain ⟨hscan, rfl⟩ := ih hfound
      rw [BraceRule.scan_cons, hstep]
      exact ⟨hscan, rfl⟩

/-- **A group is a balanced text and the brace behind it.** -/
theorem readGroup?_eq_some_iff {cs inside rest : List Char} :
    readGroup? rule state cs = some (inside, rest) ↔
      rule.scan state inside = some (0, false) ∧ cs = inside ++ '\x7d' :: rest := by
  refine ⟨scan_of_readGroup?, ?_⟩
  rintro ⟨hscan, rfl⟩
  exact readGroup?_of_scan hscan rest

/-- Balanced texts in braces are read one after the other. -/
theorem readGroups?_groups {arguments : List String}
    (h : ∀ argument ∈ arguments, rule.Balanced argument) (rest : List Char) :
    readGroups? rule arguments.length ((String.join (arguments.map group)).toList ++ rest)
      = some (arguments, rest) := by
  induction arguments with
  | nil => rfl
  | cons argument arguments ih =>
    obtain ⟨hargument, harguments⟩ := List.forall_mem_cons.mp h
    have htext : (String.join ((argument :: arguments).map group)).toList ++ rest
        = '\x7b' :: (argument.toList
          ++ '\x7d' :: ((String.join (arguments.map group)).toList ++ rest)) := by
      simp [group]
    have hread : readGroup? rule (0, false) (argument.toList
          ++ '\x7d' :: ((String.join (arguments.map group)).toList ++ rest))
        = some (argument.toList, (String.join (arguments.map group)).toList ++ rest) :=
      readGroup?_of_scan hargument _
    rw [htext, List.length_cons, readGroups?, hread, Option.bind_some, ih harguments,
      Option.map_some, String.ofList_toList]

/-- A control word is read up to the brace behind it. -/
theorem readWord?_control {word : String} (h : IsWord word) (rest : List Char) :
    readWord? letters ((control word).toList ++ '\x7b' :: rest) = some (word, '\x7b' :: rest) := by
  have hletters : ∀ c ∈ word.toList, letters.mem c = true := fun c hc => letters.ascii c (h c hc)
  have htext : (control word).toList ++ '\x7b' :: rest
      = '\\' :: (word.toList ++ '\x7b' :: rest) := by
    simp [control]
  rw [htext, readWord?, List.takeWhile_append_of_pos hletters,
    List.dropWhile_append_of_pos hletters, List.takeWhile_cons_of_neg (by simp [letters.brace]),
    List.dropWhile_cons_of_neg (by simp [letters.brace]), List.append_nil, String.ofList_toList]

end Reading

end Tex

open Registry Tex

namespace CommandEntry

/-! ## Calls -/

variable {name body : String} {arity : Nat} {e : CommandEntry}

/-- A command that is accepted has a word for its name. -/
theorem isWord_name (h : make name arity body = .ok e) : IsWord e.name := by
  obtain ⟨hname, rfl⟩ := Registration.command_of_make h
  exact Registration.isWord_of_check hname

/-- The groups of a call: one for each argument, or an empty one for none. -/
def groups (arguments : List String) : List String :=
  if arguments = [] then [""] else arguments

theorem call_eq {arguments : List String} (h : arguments.length = e.arity) :
    e.call arguments
      = .ok (control e.name ++ String.join ((groups arguments).map group)) := by
  rw [call, if_pos h]
  cases arguments <;> rfl

theorem groups_ne_nil (arguments : List String) : groups arguments ≠ [] := by
  rw [groups]
  split
  · simp
  · assumption

theorem length_groups (arguments : List String) :
    (groups arguments).length = max 1 arguments.length := by
  cases arguments with
  | nil => rfl
  | cons argument arguments => simp [groups]

/-- The word of a call ends where its first group begins. -/
theorem readWord?_call (hname : IsWord e.name) {letters : Letters} (arguments : List String)
    (t : String) :
    readWord? letters
        (control e.name ++ String.join ((groups arguments).map group) ++ t).toList
      = some (e.name, (String.join ((groups arguments).map group)).toList ++ t.toList) := by
  obtain ⟨first, others, hgroups⟩ := List.exists_cons_of_ne_nil (groups_ne_nil arguments)
  have htext : (String.join ((groups arguments).map group)).toList ++ t.toList
      = '\x7b' :: (first.toList
        ++ '\x7d' :: ((String.join (others.map group)).toList ++ t.toList)) := by
    simp [hgroups, group]
  rw [String.toList_append, String.toList_append, List.append_assoc, htext,
    readWord?_control hname]

/-- **A call reads back**, whatever text follows it. -/
theorem readCall?_call (hname : IsWord e.name) {letters : Letters} {rule : BraceRule}
    {arguments : List String} (hlength : arguments.length = e.arity)
    (h : ∀ argument ∈ arguments, rule.Balanced argument) (t : String) :
    readCall? letters rule e.arity
        (control e.name ++ String.join ((groups arguments).map group) ++ t)
      = some (e.name, arguments, t) := by
  have hbalanced : ∀ text ∈ groups arguments, rule.Balanced text := by
    rw [groups]
    split
    · simp [BraceRule.Balanced, BraceRule.scan]
    · exact h
  have hread := readGroups?_groups hbalanced t.toList
  rw [length_groups, hlength] at hread
  rw [readCall?, readWord?_call hname, Option.bind_some, hread, ← hlength]
  cases arguments with
  | nil => simp [groups]
  | cons argument arguments => simp [groups]

/-! ## Definitions -/

/-- More parameters go on where fewer end. -/
theorem parameters_add (n k : Nat) :
    parameters (n + k)
      = parameters n ++ String.join ((List.range k).map fun i => "#" ++ toString (n + i + 1)) := by
  rw [parameters, parameters, List.range_add, List.map_append, String.join_append, List.map_map]
  rfl

/-- What stands behind the last parameter begins a group, and so there is no further one. -/
theorem eq_zero_of_parameters {n k : Nat} {b b' : String}
    (h : parameters n ++ group b = parameters (n + k) ++ group b') : k = 0 := by
  rw [parameters_add, String.append_assoc, String.append_right_inj] at h
  cases k with
  | zero => rfl
  | succ k =>
    -- One side goes on with a brace and the other with the mark of a parameter.
    have hhead := congrArg (fun text => text.toList.head?) h
    simp [group, List.range_succ_eq_map] at hhead

theorem parameters_group_inj {n n' : Nat} {b b' : String}
    (h : parameters n ++ group b = parameters n' ++ group b') : n = n' ∧ b = b' := by
  have hn : n = n' := by
    rcases Nat.le_total n n' with hle | hle
    · obtain ⟨k, rfl⟩ := Nat.exists_eq_add_of_le hle
      have hk := eq_zero_of_parameters h
      omega
    · obtain ⟨k, rfl⟩ := Nat.exists_eq_add_of_le hle
      have hk := eq_zero_of_parameters h.symm
      omega
  subst hn
  rw [String.append_right_inj] at h
  exact ⟨rfl, by simpa [group] using h⟩

/-- **A definition says what it defines.** -/
theorem definition_inj {e e' : CommandEntry} (hname : IsWord e.name) (hname' : IsWord e'.name)
    (h : Entry.definition e = Entry.definition e') : e = e' := by
  have hword : e.name = e'.name := by
    refine word_unique hname hname' (Registration.defines_command e) ?_
    rw [h]
    exact Registration.defines_command e'
  have hrest : parameters e.arity ++ group e.body = parameters e'.arity ++ group e'.body := by
    simpa [Entry.definition, hword, String.append_assoc] using h
  obtain ⟨harity, hbody⟩ := parameters_group_inj hrest
  cases e
  cases e'
  simp_all

/-! ## Commands that are accepted -/

/-- **Calls and definitions read back as written.** Whatever characters are letters and whichever
braces count, a call of an accepted command with balanced arguments, as many as it has
parameters, is read as its name, its arguments and the text behind it. Without arguments
the name is ended by an empty group, which keeps the letters of the text behind it apart.
Commands that are accepted and defined alike have one name, one number of parameters and one
body, whatever the bodies are. -/
theorem calls_and_definitions_read_back :
    (∀ text : String, BraceRule.every.Balanced text ↔ Tex.Balanced text) ∧
    (∀ (letters : Letters) (rule : BraceRule) (name : String) (arity : Nat) (body : String)
        (e : CommandEntry), make name arity body = .ok e →
      ∀ arguments : List String, arguments.length = e.arity →
        (∀ argument ∈ arguments, rule.Balanced argument) → ∀ t : String,
        ∃ fragment, e.call arguments = .ok fragment ∧
          readCall? letters rule e.arity (fragment ++ t) = some (e.name, arguments, t) ∧
          (e.arity = 0 → readWord? letters (fragment ++ t).toList
            = some (e.name, '\x7b' :: '\x7d' :: t.toList))) ∧
    ∀ (name name' : String) (arity arity' : Nat) (body body' : String) (e e' : CommandEntry),
      make name arity body = .ok e → make name' arity' body' = .ok e' →
        Entry.definition e = Entry.definition e' →
        e.name = e'.name ∧ e.arity = e'.arity ∧ e.body = e'.body := by
  refine ⟨fun text => BraceRule.balanced_every_iff, ?_, ?_⟩
  · intro letters rule name arity body e hmake arguments hlength h t
    have hname : IsWord e.name := isWord_name hmake
    refine ⟨_, call_eq hlength, readCall?_call hname hlength h t, fun harity => ?_⟩
    obtain rfl : arguments = [] := List.eq_nil_of_length_eq_zero (hlength.trans harity)
    rw [readWord?_call hname]
    rfl
  · intro name name' arity arity' body body' e e' hmake hmake' h
    obtain rfl := definition_inj (isWord_name hmake) (isWord_name hmake') h
    exact ⟨rfl, rfl, rfl⟩

/-- Groups inside an argument, a brace that is only a character, and text behind the call that
looks like one more group stay where they are; letters behind a call without arguments stay
outside of its name; and a body that begins like a parameter is no parameter. -/
theorem awkward_calls_read_back :
    let pair : CommandEntry := ⟨"pair", 2, "(#1, #2)"⟩
    let sign : CommandEntry := ⟨"sig", 0, "\\rule\x7b4cm\x7d\x7b0.4pt\x7d"⟩
    let first : CommandEntry := ⟨"f", 1, "#2\x7bx\x7d"⟩
    let second : CommandEntry := ⟨"f", 2, "x"⟩
    (∃ fragment, pair.call ["\x7ba\x7d\x7bb\x7d", "\\\x7d"] = .ok fragment ∧
      readCall? .ofAscii .unescaped 2 (fragment ++ "\x7bc\x7d")
        = some ("pair", ["\x7ba\x7d\x7bb\x7d", "\\\x7d"], "\x7bc\x7d")) ∧
    (∃ fragment, sign.call [] = .ok fragment ∧
      readWord? .ofAscii (fragment ++ "nature").toList
        = some ("sig", "\x7b\x7dnature".toList)) ∧
    Entry.definition first ≠ Entry.definition second := by
  intro pair sign first second
  obtain ⟨-, hcalls, hdefinitions⟩ := calls_and_definitions_read_back
  have hpair : make "pair" 2 "(#1, #2)" = .ok pair := by decide
  have hsign : make "sig" 0 "\\rule\x7b4cm\x7d\x7b0.4pt\x7d" = .ok sign := by decide
  have hfirst : make "f" 1 "#2\x7bx\x7d" = .ok first := by decide
  have hsecond : make "f" 2 "x" = .ok second := by decide
  refine ⟨?_, ?_, fun h => ?_⟩
  · obtain ⟨fragment, hcall, hread, -⟩ := hcalls .ofAscii .unescaped _ _ _ pair hpair
      ["\x7ba\x7d\x7bb\x7d", "\\\x7d"] rfl (by decide) "\x7bc\x7d"
    exact ⟨fragment, hcall, hread⟩
  · obtain ⟨fragment, hcall, -, hread⟩ := hcalls .ofAscii .every _ _ _ sign hsign [] rfl
      (by decide) "nature"
    exact ⟨fragment, hcall, hread rfl⟩
  · have harity := (hdefinitions _ _ _ _ _ _ first second hfirst hsecond h).2.1
    exact absurd harity (by decide)

end CommandEntry

end Galley
