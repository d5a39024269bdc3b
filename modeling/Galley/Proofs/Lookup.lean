/-
`Proofs/Lookup.lean` -- a missing name and malformed input are never confused.

Four calls look up a name that their caller gives, and a name that the document does not
know is the only thing that three of them can fail for. The fourth, a call of a command,
can also be given the wrong number of arguments. That is malformed input and no missing
name, and the number that is right is the one that the command was last registered with.
No other call fails for a missing name: registrations and constructs look nothing up, and
marking looks up built-in names only, which are never missing.

The two sides meet in one conversion of registry errors, so what is shown first is on
which side of it every check falls.
-/
import Galley.Proofs.Marking

set_option autoImplicit false

namespace Galley

open Registry Document

/-! ## Names that are accepted -/

namespace Registry

theorem checkControlWord_ok_iff (kind : Kind) (name : String) :
    checkControlWord kind name = .ok () ↔ name ≠ "" ∧ Tex.IsWord name := by
  have hletters : name.toList.all Char.isAlpha = true ↔ Tex.IsWord name := List.all_eq_true
  rw [checkControlWord]
  by_cases hempty : name = ""
  · rw [if_pos (String.isEmpty_iff.mpr hempty)]
    exact iff_of_false (by rintro ⟨⟩) fun h => h.1 hempty
  · rw [if_neg (fun h => hempty (String.isEmpty_iff.mp h))]
    by_cases hword : Tex.IsWord name
    · rw [if_pos (hletters.mpr hword)]
      exact iff_of_true rfl ⟨hempty, hword⟩
    · rw [if_neg (fun h => hword (hletters.mp h))]
      exact iff_of_false (by rintro ⟨⟩) fun h => hword h.2

variable {kind : Kind} {name : String} {e : Error}

/-- A name is refused for what is wrong with it, and the error is about that name. -/
theorem checkControlWord_error (h : checkControlWord kind name = .error e) :
    ∃ fault, e = .invalidName kind name fault := by
  rw [checkControlWord] at h
  split at h
  · exact ⟨.empty, (Except.error.inj h).symm⟩
  · split at h
    · cases h
    · exact ⟨.notLetters, (Except.error.inj h).symm⟩

/-- A name that is not accepted is refused. -/
theorem exists_fault (kind : Kind) (h : ¬ (name ≠ "" ∧ Tex.IsWord name)) :
    ∃ fault, checkControlWord kind name = .error (.invalidName kind name fault) := by
  cases hcheck : checkControlWord kind name with
  | ok u => exact absurd ((checkControlWord_ok_iff kind name).mp hcheck) h
  | error e =>
    obtain ⟨fault, rfl⟩ := checkControlWord_error hcheck
    exact ⟨fault, rfl⟩

end Registry

theorem StyleEntry.make_of_ok {name opening closing : String}
    (h : checkControlWord .style name = .ok ()) :
    StyleEntry.make name opening closing = .ok { name, opening, closing } := by
  rw [StyleEntry.make, h]
  rfl

theorem StyleEntry.make_of_error {name opening closing : String} {e : Registry.Error}
    (h : checkControlWord .style name = .error e) :
    StyleEntry.make name opening closing = .error e := by
  rw [StyleEntry.make, h]
  rfl

/-- The number of parameters is looked at after the name. -/
theorem CommandEntry.make_of_ok {name : String} {arity : Nat} {body : String}
    (h : checkControlWord .command name = .ok ()) :
    CommandEntry.make name arity body
      = if maxArity < arity then .error (.tooManyParameters name arity)
        else .ok { name, arity, body } := by
  rw [CommandEntry.make, h]
  split <;> rfl

theorem CommandEntry.make_of_error {name : String} {arity : Nat} {body : String}
    {e : Registry.Error} (h : checkControlWord .command name = .error e) :
    CommandEntry.make name arity body = .error e := by
  rw [CommandEntry.make, h]
  rfl

/-! ## Checks look nothing up -/

/-- The conversion keeps the two sides apart. -/
theorem DocumentError.isLookup_ofRegistry (e : Registry.Error) :
    (ofRegistry e).isLookup = e.isLookup := by
  cases e <;> rfl

section Checks

variable {e : Registry.Error}

theorem ColourEntry.make_not_lookup {name value : String} {model : ColourModel}
    (h : ColourEntry.make name value model = .error e) : e.isLookup = false := by
  rw [ColourEntry.make] at h
  split at h
  · split at h
    · cases h
    · obtain rfl := Except.error.inj h
      rfl
  · obtain rfl := Except.error.inj h
    rfl

theorem Registry.checkControlWord_not_lookup {kind : Kind} {name : String}
    (h : checkControlWord kind name = .error e) : e.isLookup = false := by
  obtain ⟨fault, rfl⟩ := checkControlWord_error h
  rfl

theorem StyleEntry.make_not_lookup {name opening closing : String}
    (h : StyleEntry.make name opening closing = .error e) : e.isLookup = false := by
  cases hname : checkControlWord .style name with
  | ok u =>
    rw [make_of_ok hname] at h
    cases h
  | error fault =>
    rw [make_of_error hname] at h
    exact Except.error.inj h ▸ checkControlWord_not_lookup hname

theorem CommandEntry.make_not_lookup {name : String} {arity : Nat} {body : String}
    (h : CommandEntry.make name arity body = .error e) : e.isLookup = false := by
  cases hname : checkControlWord .command name with
  | ok u =>
    rw [make_of_ok hname] at h
    split at h
    · obtain rfl := Except.error.inj h
      rfl
    · cases h
  | error fault =>
    rw [make_of_error hname] at h
    exact Except.error.inj h ▸ checkControlWord_not_lookup hname

end Checks

/-- Whether the call looks up a name that its caller gives. -/
def Operation.looksUp : Operation → Bool
  | colour _ => true
  | style .. => true
  | call .. => true
  | stepCounter _ => true
  | _ => false

section Register

variable {α : Type} {made : Except Registry.Error α} {wrap : α → Registration} {d : Document}

theorem Effect.register_isOk_iff :
    ((Effect.register (made.map wrap)).on d).1.isOk = true ↔ ∃ entry, made = .ok entry := by
  cases made with
  | ok entry => exact iff_of_true rfl ⟨entry, rfl⟩
  | error e => exact iff_of_false nofun nofun

/-- A registration fails for what was wrong with its input. -/
theorem Effect.register_error_iff {e : DocumentError} :
    ((Effect.register (made.map wrap)).on d).1 = .error e ↔
      ∃ cause, made = .error cause ∧ e = .ofRegistry cause := by
  cases made with
  | ok entry => exact iff_of_false nofun nofun
  | error cause =>
    constructor
    · intro h
      exact ⟨cause, rfl, (Except.error.inj h).symm⟩
    · rintro ⟨cause', hcause, rfl⟩
      obtain rfl := Except.error.inj hcause
      rfl

end Register

namespace Effect

variable {d : Document} {e : DocumentError}

theorem register_not_lookup {α : Type} {made : Except Registry.Error α} {wrap : α → Registration}
    (hmade : ∀ cause, made = .error cause → cause.isLookup = false)
    (h : ((register (made.map wrap)).on d).1 = .error e) : e.isLookup = false := by
  obtain ⟨cause, hcause, rfl⟩ := register_error_iff.mp h
  rw [DocumentError.isLookup_ofRegistry]
  exact hmade cause hcause

theorem write_not_lookup {construct : Except ValidationError Fragment}
    (h : ((write construct).on d).1 = .error e) : e.isLookup = false := by
  cases construct with
  | ok fragment => cases h
  | error cause =>
    obtain rfl := Except.error.inj h
    rfl

/-- Options are refused for the watermark or for a colour. -/
theorem start_not_lookup {options : Option DocumentOptions}
    (h : ((start options).on d).1 = .error e) : e.isLookup = false := by
  rw [on] at h
  cases hadmitted : admitted (options.getD d.options) with
  | ok entries =>
    rw [hadmitted] at h
    cases h
  | error fault =>
    rw [hadmitted] at h
    obtain rfl := Except.error.inj h
    rcases (admitted_error_iff _ _).mp hadmitted with ⟨-, -⟩ | ⟨-, -, hcause⟩
    · rfl
    · rw [DocumentError.isLookup_ofRegistry]
      exact ColourEntry.make_not_lookup hcause

/-- A look-up that has failed was answered with its error. -/
theorem read_error {answer : Registries → Except DocumentError Fragment}
    (h : ((read answer).on d).1 = .error e) : answer d.registries = .error e := by
  rw [on] at h
  cases hanswer : answer d.registries with
  | ok fragment =>
    rw [hanswer] at h
    cases h
  | error fault =>
    rw [hanswer] at h
    exact congrArg Except.error (Except.error.inj h)

end Effect

/-- **No other call misses a name.** -/
theorem Tracks.not_lookup {edition : Edition} {d : Document} (h : Tracks edition d)
    {op : Operation} (hop : op.looksUp = false) {e : DocumentError}
    (he : (op.run.on d).1 = .error e) : e.isLookup = false := by
  have hcomplete := complete_styler h
  -- Numbered content looks its counter up, but that one is declared in every document.
  have hnumber : ∀ counter ∈ builtInCounters, ∀ construct,
      ((Effect.number counter construct).on d).1 ≠ .error e := by
    intro counter hcounter construct herror
    rw [Effect.on, Counters.step, if_pos (h.contains_builtIn hcounter)] at herror
    cases herror
  rw [Operation.run_on] at he
  cases op with
  | colour name => cases hop
  | style name text => cases hop
  | call name arguments => cases hop
  | stepCounter name => cases hop
  | addColour name value model =>
    exact Effect.register_not_lookup (fun _ => ColourEntry.make_not_lookup) he
  | addStyle name opening closing =>
    exact Effect.register_not_lookup (fun _ => StyleEntry.make_not_lookup) he
  | addCommand name arity body =>
    exact Effect.register_not_lookup (fun _ => CommandEntry.make_not_lookup) he
  | addCounter name => exact Effect.register_not_lookup (fun _ => checkControlWord_not_lookup) he
  | numberedParagraph label text => exact absurd he (hnumber _ List.mem_cons_self _)
  | numberedHeading title =>
    exact absurd he (hnumber _ (List.mem_cons_of_mem _ List.mem_cons_self) _)
  | table columns rows => exact Effect.write_not_lookup he
  | list items => exact Effect.write_not_lookup he
  | styleText text flags =>
    have hspan : d.styler.style text flags = .error e := Effect.read_error he
    rw [Styler.style_eq hcomplete] at hspan
    cases hspan
  | revise preset history n m =>
    have hanswer : d.styler.applyPreset preset history n m = .error e := Effect.read_error he
    rcases (Styler.applyPreset_error_iff hcomplete e).mp hanswer with ⟨-, rfl⟩ | ⟨-, -, -, rfl⟩
    · rfl
    · rfl
  | popIf condition => cases condition <;> cases he
  | init options => exact Effect.start_not_lookup he
  | reset => exact Effect.start_not_lookup he
  | _ => cases he

/-! ## The parameters of a command -/

/-- The number of parameters that a call gives a command, if it registers it with success. -/
def Call.arity? (name : String) (call : Call) : Option Nat :=
  match call.1 with
  | .addCommand registered arity _ =>
    if registered = name ∧ call.2.isOk = true then some arity else none
  | _ => none

/-- The number of parameters that a command was last registered with. -/
def lastArity? (name : String) (calls : List Call) : Option Nat :=
  (calls.filterMap (Call.arity? name)).getLast?

theorem lastArity?_concat (name : String) (calls : List Call) (call : Call) :
    lastArity? name (calls ++ [call]) = (call.arity? name).or (lastArity? name calls) := by
  rw [lastArity?, lastArity?, List.filterMap_append, List.getLast?_append]
  cases harity : call.arity? name with
  | none => rw [List.filterMap_cons_none harity, List.filterMap_nil, List.getLast?_nil]
  | some arity => rw [List.filterMap_cons_some harity, List.filterMap_nil, List.getLast?_singleton]

theorem lastArity?_eq_none_iff {name : String} {calls : List Call} :
    lastArity? name calls = none ↔
      ∀ call ∈ calls, ∀ arity body, call.1 = .addCommand name arity body → call.2.isOk = false := by
  have hcall : ∀ call : Call, call.arity? name = none ↔
      ∀ arity body, call.1 = .addCommand name arity body → call.2.isOk = false := by
    intro call
    rw [Call.arity?]
    split
    · next registered arity body hop =>
      rw [hop]
      by_cases hname : registered = name
      · simp [hname]
      · simp [hname]
    · next hop => exact iff_of_true rfl fun arity body h => absurd h (hop name arity body)
  rw [lastArity?, List.getLast?_eq_none_iff, List.filterMap_eq_nil_iff]
  exact forall₂_congr fun call _ => hcall call

/-- What an effect registers is the only thing that it does to the commands. -/
theorem Effect.commands_on {effect : Effect} {d : Document}
    (hbegin : (effect.startsOver && (effect.on d).1.isOk) = false) :
    (effect.on d).2.commands
      = (effect.registration?.bind Registration.command?).elim d.commands d.commands.insert := by
  cases effect with
  | write construct => cases construct <;> rfl
  | remove wanted => cases wanted <;> rfl
  | advance counter =>
    rw [on]
    cases d.counters.step counter <;> rfl
  | number counter construct =>
    rw [on]
    cases d.counters.step counter <;> rfl
  | register r =>
    cases r with
    | ok r => exact commands_register d r
    | error e => rfl
  | start options =>
    rw [start_refused hbegin]
    rfl
  | _ => rfl

/-- A document starts without commands. -/
theorem Document.commands_opened (o : DocumentOptions) (entries : List ColourEntry) :
    (opened o entries).commands = {} := by
  have hlist : ∀ (l : List Registration) (d : Document), (∀ r ∈ l, r.command? = none) →
      (l.foldl register d).commands = d.commands := by
    intro l
    induction l with
    | nil => exact fun _ _ => rfl
    | cons r l ih =>
      intro d h
      obtain ⟨hr, hl⟩ := List.forall_mem_cons.mp h
      rw [List.foldl_cons, ih _ hl, commands_register, hr, Option.elim_none]
  have hbuiltIns : ∀ r ∈ builtIns, r.command? = none := by decide
  refine hlist _ (blank o) fun r hr => ?_
  rcases List.mem_append.mp hr with hr | hr
  · exact hbuiltIns r hr
  · obtain ⟨entry, -, rfl⟩ := List.mem_map.mp hr
    rfl

/-- **One call.** Unless it starts over, a command keeps its number of parameters, or the
call gives it another one. -/
theorem Operation.find?_commands_on {d : Document} (op : Operation) (name : String)
    (hbegin : Call.begins (op, (op.run.on d).1) = false) :
    ((op.run.on d).2.commands.find? name).map CommandEntry.arity
      = (Call.arity? name (op, (op.run.on d).1)).or
        ((d.commands.find? name).map CommandEntry.arity) := by
  rw [Call.begins, startsOver, run_on] at hbegin
  rw [run_on, Effect.commands_on hbegin]
  cases op with
  | addCommand registered arity body =>
    rw [Call.arity?]
    cases hmade : CommandEntry.make registered arity body with
    | error e => simp [effect, hmade, Effect.registration?, Effect.on, submit, Except.map,
        Except.isOk, Except.toBool]
    | ok entry =>
      obtain ⟨-, rfl⟩ := Registration.command_of_make hmade
      -- The entry takes the place of an older one of its name, whatever number that one had.
      have hfind : (d.commands.insert { name := registered, arity, body }).find? name
          = if registered = name then some { name := registered, arity, body }
            else d.commands.find? name :=
        find?_insert d.commands { name := registered, arity, body } name
      simp only [effect, hmade, Effect.registration?, Effect.on, submit, Except.map,
        Option.bind_some, Registration.command?, Option.elim_some, hfind]
      by_cases hname : registered = name
      · simp [hname, Except.isOk, Except.toBool]
      · simp [hname]
  | addColour registered value model =>
    cases hmade : ColourEntry.make registered value model <;>
      simp [effect, hmade, Effect.registration?, Except.map, Registration.command?, Call.arity?]
  | addStyle registered opening closing =>
    cases hmade : StyleEntry.make registered opening closing <;>
      simp [effect, hmade, Effect.registration?, Except.map, Registration.command?, Call.arity?]
  | addCounter registered =>
    cases hmade : checkControlWord .counter registered <;>
      simp [effect, hmade, Effect.registration?, Except.map, Registration.command?, Call.arity?]
  | _ => rfl

/-- **A whole history.** A command has the number of parameters that it was last registered
with since the last start. -/
theorem Document.arity_runAll {o : DocumentOptions} {d₀ : Document} (h : Document.new o = .ok d₀)
    (operations : List Operation) (name : String) :
    ((Operation.runAll operations d₀).commands.find? name).map CommandEntry.arity
      = lastArity? name (sinceStart (Operation.transcript operations d₀)) := by
  have hopened : ∀ (o : DocumentOptions) (entries : List ColourEntry),
      ((opened o entries).commands.find? name).map CommandEntry.arity = lastArity? name [] := by
    intro o entries
    rw [commands_opened]
    rfl
  have hstep : ∀ (op : Operation) {edition : Edition} {d : Document} {calls : List Call},
      Tracks edition d → Call.begins (op, (op.run.on d).1) = false →
      (d.commands.find? name).map CommandEntry.arity = lastArity? name calls →
      ((op.run.on d).2.commands.find? name).map CommandEntry.arity
        = lastArity? name (calls ++ [(op, (op.run.on d).1)]) := by
    intro op edition d calls _ hbegin hcalls
    rw [op.find?_commands_on name hbegin, hcalls, lastArity?_concat]
  exact eq_sinceStart (fun d => (d.commands.find? name).map CommandEntry.arity)
    (lastArity? name) hopened hstep h operations

/-! ## What look-ups fail for -/

section Answers

variable {d : Document} {name : String} {e : DocumentError}

/-- A look-up in a registry fails for a missing name and for nothing else. -/
theorem read_error_iff {ε : Type} [Entry ε] (registry : Registry ε) (write : ε → Fragment) :
    (((registry.get name).mapError DocumentError.ofRegistry).map write).map Answer.fragment
        = .error e ↔
      registry.contains name ≠ true ∧ e = .lookup (.unknown (Entry.kind ε) name) := by
  cases hget : registry.get name with
  | ok entry =>
    have hcontains : registry.contains name = true := by
      by_contra hmissing
      have herror := get_error_iff.mpr ⟨Bool.of_not_eq_true hmissing, rfl⟩
      rw [hget] at herror
      cases herror
    exact iff_of_false nofun fun h => h.1 hcontains
  | error cause =>
    obtain ⟨hmissing, rfl⟩ := get_error_iff.mp hget
    rw [hmissing]
    constructor
    · intro h
      exact ⟨Bool.false_ne_true, (Except.error.inj h).symm⟩
    · rintro ⟨-, rfl⟩
      rfl

/-- So does a step of a counter. -/
theorem advance_error_iff :
    ((Effect.advance name).on d).1 = .error e ↔
      d.counters.contains name ≠ true ∧ e = .lookup (.unknown .counter name) := by
  rw [Effect.on, Counters.step]
  by_cases hdeclared : d.counters.contains name = true
  · rw [if_pos hdeclared]
    exact iff_of_false (by rintro ⟨⟩) fun h => h.1 hdeclared
  · rw [if_neg hdeclared]
    constructor
    · intro h
      exact ⟨hdeclared, (Except.error.inj h).symm⟩
    · rintro ⟨-, rfl⟩
      rfl

/-- A call of a command fails for a missing name, or for the number of its arguments if the
name is not missing. -/
theorem call_error_iff {arguments : List String} :
    ((Operation.call name arguments).run.on d).1 = .error e ↔
      (d.commands.find? name = none ∧ e = .lookup (.unknown .command name)) ∨
      ∃ arity, (d.commands.find? name).map CommandEntry.arity = some arity ∧
        arguments.length ≠ arity ∧
        e = .validation (.registry (.argumentCount name arity arguments.length)) := by
  have hanswer : ((Operation.call name arguments).run.on d).1
      = (((d.commands.get name).bind fun entry => entry.call arguments).mapError
          DocumentError.ofRegistry).map Answer.fragment := by
    rw [Operation.run_on]
    rfl
  rw [hanswer, Registry.get]
  cases hfind : d.commands.find? name with
  | none =>
    constructor
    · intro h
      exact .inl ⟨rfl, (Except.error.inj h).symm⟩
    · rintro (⟨-, rfl⟩ | ⟨arity, harity, -⟩)
      · rfl
      · cases harity
  | some entry =>
    -- An error is about the name of the entry, which is the one that was looked up.
    have hfound : Entry.name entry = name := by simpa using List.find?_some hfind
    have hname : entry.name = name := hfound
    simp only [Except.bind, CommandEntry.call, Option.map_some, hname]
    by_cases harity : arguments.length = entry.arity
    · rw [if_pos harity]
      refine iff_of_false (by rintro ⟨⟩) ?_
      rintro (⟨hnone, -⟩ | ⟨arity, hsome, hdiffers, -⟩)
      · cases hnone
      · exact hdiffers (harity.trans (Option.some.inj hsome))
    · rw [if_neg harity]
      constructor
      · intro h
        exact .inr ⟨entry.arity, rfl, harity, (Except.error.inj h).symm⟩
      · rintro (⟨hnone, -⟩ | ⟨arity, hsome, -, rfl⟩)
        · cases hnone
        · obtain rfl := Option.some.inj hsome
          rfl

end Answers

/-! ## What registrations are accepted for -/

section Accepted

variable (d : Document) (name : String)

theorem addStyle_isOk_iff (opening closing : String) :
    ((Operation.addStyle name opening closing).run.on d).1.isOk = true ↔
      name ≠ "" ∧ Tex.IsWord name := by
  rw [Operation.run_on, ← checkControlWord_ok_iff .style]
  refine Effect.register_isOk_iff.trans ⟨?_, fun hname => ⟨_, StyleEntry.make_of_ok hname⟩⟩
  rintro ⟨entry, hmade⟩
  exact (Registration.style_of_make hmade).1

theorem addCounter_isOk_iff :
    ((Operation.addCounter name).run.on d).1.isOk = true ↔ name ≠ "" ∧ Tex.IsWord name := by
  rw [Operation.run_on, ← checkControlWord_ok_iff .counter]
  exact Effect.register_isOk_iff.trans ⟨fun ⟨_, hname⟩ => hname, fun hname => ⟨(), hname⟩⟩

/-- A bad name of a command is found before a bad number of parameters. -/
theorem addCommand_refused (arity : Nat) (body : String) (h : ¬ (name ≠ "" ∧ Tex.IsWord name)) :
    ∃ fault, ((Operation.addCommand name arity body).run.on d).1
      = .error (.validation (.registry (.invalidName .command name fault))) := by
  obtain ⟨fault, hfault⟩ := exists_fault .command h
  refine ⟨fault, ?_⟩
  rw [Operation.run_on]
  exact Effect.register_error_iff.mpr ⟨_, CommandEntry.make_of_error hfault, rfl⟩

theorem addCommand_tooMany {arity : Nat} (body : String) (h : name ≠ "" ∧ Tex.IsWord name)
    (harity : 9 < arity) :
    ((Operation.addCommand name arity body).run.on d).1
      = .error (.validation (.registry (.tooManyParameters name arity))) := by
  have hmade : CommandEntry.make name arity body = .error (.tooManyParameters name arity) := by
    rw [CommandEntry.make_of_ok ((checkControlWord_ok_iff .command name).mpr h)]
    exact if_pos harity
  rw [Operation.run_on]
  exact Effect.register_error_iff.mpr ⟨_, hmade, rfl⟩

theorem addCommand_isOk_iff (arity : Nat) (body : String) :
    ((Operation.addCommand name arity body).run.on d).1.isOk = true ↔
      (name ≠ "" ∧ Tex.IsWord name) ∧ arity ≤ 9 := by
  by_cases hname : name ≠ "" ∧ Tex.IsWord name
  · by_cases harity : 9 < arity
    · rw [addCommand_tooMany d name body hname harity]
      refine iff_of_false nofun fun h => ?_
      omega
    · have hmade : CommandEntry.make name arity body = .ok { name, arity, body } := by
        rw [CommandEntry.make_of_ok ((checkControlWord_ok_iff .command name).mpr hname)]
        exact if_neg harity
      have hbound : arity ≤ 9 := by omega
      rw [Operation.run_on]
      exact iff_of_true (Effect.register_isOk_iff.mpr ⟨_, hmade⟩) ⟨hname, hbound⟩
  · obtain ⟨fault, hfault⟩ := addCommand_refused d name arity body hname
    rw [hfault]
    exact iff_of_false nofun fun h => hname h.1

end Accepted

namespace Document

open Operation

/-- **Missing names and malformed input stay apart.** After any calls on a new document, a
colour, a style and a counter are missed exactly when the name is not known, and the error
says so; a name is known when it is built in, belongs to a colour of the options of the last
start, or was registered with success since then. A command is missed exactly when no such
registration was made; otherwise its call fails exactly for a number of arguments that is not
the one of the last registration, which is malformed input. No other call fails for a missing
name. Styles, counters and commands are accepted under the non-empty names of letters and
under no other ones, and the number of parameters of a command is looked at after its name. -/
theorem misses_and_faults_stay_apart {o : DocumentOptions} {d₀ : Document}
    (h : Document.new o = .ok d₀) (operations : List Operation) :
    let d := runAll operations d₀
    let history := transcript operations d₀
    let known := Known (Edition.after { options := o } history).options (sinceStart history)
    (∀ name e, ((Operation.colour name).run.on d).1 = .error e ↔
      ¬ known .colour name ∧ e = .lookup (.unknown .colour name)) ∧
    (∀ name text e, ((Operation.style name text).run.on d).1 = .error e ↔
      ¬ known .style name ∧ e = .lookup (.unknown .style name)) ∧
    (∀ name e, ((Operation.stepCounter name).run.on d).1 = .error e ↔
      ¬ known .counter name ∧ e = .lookup (.unknown .counter name)) ∧
    (∀ name arguments e, ((Operation.call name arguments).run.on d).1 = .error e ↔
      ((∀ call ∈ sinceStart history, ∀ arity body,
          call.1 = .addCommand name arity body → call.2.isOk = false) ∧
        e = .lookup (.unknown .command name)) ∨
      ∃ arity, lastArity? name (sinceStart history) = some arity ∧ arguments.length ≠ arity ∧
        e = .validation (.registry (.argumentCount name arity arguments.length))) ∧
    (∀ op : Operation, op.looksUp = false → ∀ e, (op.run.on d).1 = .error e →
      e.isLookup = false) ∧
    (∀ name opening closing, ((Operation.addStyle name opening closing).run.on d).1.isOk = true ↔
      name ≠ "" ∧ Tex.IsWord name) ∧
    (∀ name, ((Operation.addCounter name).run.on d).1.isOk = true ↔
      name ≠ "" ∧ Tex.IsWord name) ∧
    ∀ name arity body,
      let answer := ((Operation.addCommand name arity body).run.on d).1
      (answer.isOk = true ↔ (name ≠ "" ∧ Tex.IsWord name) ∧ arity ≤ 9) ∧
      (¬ (name ≠ "" ∧ Tex.IsWord name) →
        ∃ fault, answer = .error (.validation (.registry (.invalidName .command name fault)))) ∧
      ((name ≠ "" ∧ Tex.IsWord name) → 9 < arity →
        answer = .error (.validation (.registry (.tooManyParameters name arity)))) := by
  intro d history known
  have hknown : ∀ kind name, d.Has kind name ↔ known kind name := has_iff_known h operations
  refine ⟨?_, ?_, ?_, ?_, ?_, ?_, ?_, ?_⟩
  · intro name e
    rw [← hknown, run_on]
    exact read_error_iff d.colours ColourEntry.switch
  · intro name text e
    rw [← hknown, run_on]
    exact read_error_iff d.styles fun entry => entry.apply text
  · intro name e
    rw [← hknown, run_on]
    exact advance_error_iff
  · intro name arguments e
    -- What the registry holds is put in terms of the calls, for a missing name and for a number.
    have harity := arity_runAll h operations name
    rw [call_error_iff, ← lastArity?_eq_none_iff, ← harity, Option.map_eq_none_iff]
  · intro op hop e he
    exact ((tracks_new h).runAll operations).not_lookup hop he
  · exact addStyle_isOk_iff d
  · exact addCounter_isOk_iff d
  · intro name arity body answer
    exact ⟨addCommand_isOk_iff d name arity body, addCommand_refused d name arity body,
      addCommand_tooMany d name body⟩

/-- A command is registered again with other parameters, once with success and once with too
many: the old number of arguments is malformed input, and a command that a refused name or a
start has kept out is missed. -/
theorem redefined_command_takes_new_arguments :
    let operations : List Operation :=
      [.addCommand "old" 1 "#1", .init { colours := [{ name := "brand", value := "0A0" }] },
        .addCommand "pair" 1 "#1", .addCommand "pair" 2 "#1#2", .addCommand "pair" 10 "",
        .addCommand "pair2" 1 "#1"]
    let d := runAll operations (opened {} [])
    ((Operation.call "pair" ["a"]).run.on d).1
        = .error (.validation (.registry (.argumentCount "pair" 2 1))) ∧
      ((Operation.call "old" ["a"]).run.on d).1 = .error (.lookup (.unknown .command "old")) ∧
      ((Operation.call "pair2" []).run.on d).1 = .error (.lookup (.unknown .command "pair2")) ∧
      ((Operation.addCommand "pair" 10 "").run.on d).1
        = .error (.validation (.registry (.tooManyParameters "pair" 10))) := by
  intro operations d
  obtain ⟨-, -, -, hcall, -, -, -, hcommand⟩ := misses_and_faults_stay_apart new_default operations
  refine ⟨?_, ?_, ?_, ?_⟩
  · exact (hcall "pair" ["a"] _).mpr (.inr ⟨2, by decide +kernel, by decide, rfl⟩)
  · exact (hcall "old" ["a"] _).mpr
      (.inl ⟨lastArity?_eq_none_iff.mp (by decide +kernel), rfl⟩)
  · exact (hcall "pair2" [] _).mpr
      (.inl ⟨lastArity?_eq_none_iff.mp (by decide +kernel), rfl⟩)
  · exact (hcommand "pair" 10 "").2.2 ⟨by decide, by decide⟩ (by decide)

end Document

end Galley
