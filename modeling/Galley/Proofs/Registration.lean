/-
`Proofs/Registration.lean` -- what registering does, and what starting over leaves.

A registration that is accepted does two things at once: it changes a registry or the
counters, and it puts a fragment at the end of the definitions. Both are one function
here, `Document.register`, and every call that registers is shown to check its input
and then to do exactly that. Starting over is a list of registrations on a document
without content, so what it leaves depends on the options alone.
-/
import Galley.Proofs.Edit

set_option autoImplicit false

namespace Galley

open Registry

/-! ## Registrations -/

/-- What can be registered in a document. -/
inductive Registration where
  | counter (name : String)
  | style (entry : StyleEntry)
  | colour (entry : ColourEntry)
  | command (entry : CommandEntry)
  deriving DecidableEq

namespace Registration

/-- The fragment that stands for a registration in the definitions. -/
def fragment : Registration → Fragment
  | counter name => Tex.command "newcounter" [name]
  | style entry => Entry.definition entry
  | colour entry => Entry.definition entry
  | command entry => Entry.definition entry

/-- What a registration is one of. -/
def kind : Registration → Kind
  | counter _ => .counter
  | style _ => .style
  | colour _ => .colour
  | command _ => .command

/-- The name that is registered. -/
def name : Registration → String
  | counter name => name
  | style entry => entry.name
  | colour entry => entry.name
  | command entry => entry.name

/-- The name of a counter. -/
def counter? : Registration → Option String
  | counter name => some name
  | _ => none

/-- The entry of a style. -/
def style? : Registration → Option StyleEntry
  | style entry => some entry
  | _ => none

/-- The entry of a colour. -/
def colour? : Registration → Option ColourEntry
  | colour entry => some entry
  | _ => none

/-- The entry of a command. -/
def command? : Registration → Option CommandEntry
  | command entry => some entry
  | _ => none

end Registration

namespace Document

/-- The document with one more definition. -/
def define (d : Document) (fragment : Fragment) : Document :=
  { d with buffer := d.buffer.append .definitions fragment }

/-- The document after a registration. A counter that exists is left alone. -/
def register (d : Document) (r : Registration) : Document :=
  match r with
  | .counter name =>
    if d.counters.contains name then d
    else define { d with counters := { declared := d.counters.declared ++ [⟨name, 0⟩] } } r.fragment
  | .style entry => define { d with styles := d.styles.insert entry } r.fragment
  | .colour entry => define { d with colours := d.colours.insert entry } r.fragment
  | .command entry => define { d with commands := d.commands.insert entry } r.fragment

theorem register_declared {d : Document} {name : String} (h : d.counters.contains name = true) :
    d.register (.counter name) = d := if_pos h

theorem register_undeclared {d : Document} {name : String}
    (h : ¬ d.counters.contains name = true) :
    d.register (.counter name)
      = define { d with counters := { declared := d.counters.declared ++ [⟨name, 0⟩] } }
        (Registration.counter name).fragment := if_neg h

section Fields

variable (d : Document) (r : Registration)

theorem options_register : (d.register r).options = d.options := by
  cases r with
  | counter name => rw [register]; split <;> rfl
  | _ => rfl

theorem system_register : (d.register r).buffer.system = d.buffer.system := by
  cases r with
  | counter name => rw [register]; split <;> rfl
  | _ => rfl

theorem body_register : (d.register r).buffer.body = d.buffer.body := by
  cases r with
  | counter name => rw [register]; split <;> rfl
  | _ => rfl

/-- A registry changes by registrations of its own kind only. -/
theorem colours_register : (d.register r).colours = r.colour?.elim d.colours d.colours.insert := by
  cases r with
  | counter name => rw [register]; split <;> rfl
  | _ => rfl

theorem styles_register : (d.register r).styles = r.style?.elim d.styles d.styles.insert := by
  cases r with
  | counter name => rw [register]; split <;> rfl
  | _ => rfl

theorem commands_register :
    (d.register r).commands = r.command?.elim d.commands d.commands.insert := by
  cases r with
  | counter name => rw [register]; split <;> rfl
  | _ => rfl

end Fields

/-- The outcome of a registration whose input was checked, and the document after it. -/
def submit (d : Document) (r : Except Registry.Error Registration) :
    Except DocumentError Unit × Document :=
  match r with
  | .ok r => (.ok (), d.register r)
  | .error e => (.error (.ofRegistry e), d)

/-! ## The calls that register -/

theorem registerColour_on (entry : ColourEntry) (d : Document) :
    (registerColour entry).on d = (.ok (), d.register (.colour entry)) := rfl

theorem addColour_on (name value : String) (model : ColourModel) (d : Document) :
    (addColour name value model).on d
      = d.submit ((ColourEntry.make name value model).map .colour) := by
  rw [addColour, Edit.on_ofRegistry_bind]
  cases ColourEntry.make name value model <;> rfl

theorem addStyle_on (name opening closing : String) (d : Document) :
    (addStyle name opening closing).on d
      = d.submit ((StyleEntry.make name opening closing).map .style) := by
  rw [addStyle, Edit.on_ofRegistry_bind]
  cases StyleEntry.make name opening closing <;> rfl

theorem addCommand_on (name : String) (arity : Nat) (body : String) (d : Document) :
    (addCommand name arity body).on d
      = d.submit ((CommandEntry.make name arity body).map .command) := by
  rw [addCommand, Edit.on_ofRegistry_bind]
  cases CommandEntry.make name arity body <;> rfl

/-- A counter is declared by its name alone, which is checked even if it exists. -/
theorem addCounter_on (name : String) (d : Document) :
    (addCounter name).on d
      = d.submit ((checkControlWord .counter name).map fun _ => .counter name) := by
  rw [addCounter, Edit.on_bind_ok (Edit.on_get d), Edit.on_ofRegistry_bind, Counters.declare]
  cases hname : checkControlWord .counter name with
  | error e => rfl
  | ok u =>
    -- A counter that exists is set to what it was, which is to leave the document alone.
    by_cases hc : d.counters.contains name = true
    · simp only [hc, if_true]
      exact congrArg (Prod.mk _) (register_declared hc).symm
    · simp only [hc]
      exact congrArg (Prod.mk _) (register_undeclared hc).symm

/-! ## Starting over -/

/-- What every document starts with, in this order. -/
def builtIns : List Registration :=
  builtInCounters.map .counter
    ++ builtInStyles.map (fun (name, opening, closing) => .style ⟨name, opening, closing⟩)
    ++ builtInColours.map fun (name, value) => .colour ⟨name, value, .html⟩

/-- The colours of the options as entries, or the first fault of the options. -/
def admitted (o : DocumentOptions) : Except DocumentError (List ColourEntry) :=
  match o.watermark.map Watermark.check with
  | some (.error e) => .error (.validation e)
  | _ => (overrides o).mapError .ofRegistry

/-- A document with a preamble and nothing else. -/
def blank (o : DocumentOptions) : Document :=
  { buffer := { system := Preamble.system o, definitions := [Preamble.listCommands] } }

/-- The document with what starting over sets last: the options, the body and the state. -/
def finish (o : DocumentOptions) (d : Document) : Document :=
  { d with options := o, buffer := { d.buffer with body := o.body }, state := .initialized }

/-- What starting over with options leaves. -/
def opened (o : DocumentOptions) (entries : List ColourEntry) : Document :=
  finish o ((builtIns ++ entries.map Registration.colour).foldl register (blank o))

theorem checkOptions_on (o : DocumentOptions) (d : Document) :
    (checkOptions o).on d = (admitted o, d) := by
  rw [checkOptions, admitted]
  cases o.watermark with
  | none => exact Edit.on_ofRegistry (overrides o) d
  | some mark =>
    show Edit.on (Edit.ofValidation mark.check >>= fun _ => Edit.ofRegistry (overrides o)) d = _
    rw [Edit.on_bind, Edit.on_ofValidation, Option.map_some]
    cases mark.check with
    | error e => rfl
    | ok u => exact Edit.on_ofRegistry (overrides o) d

/-! ### The colours of the options -/

/-- The colours of the options as entries, less those that are malformed. -/
def colourEntries (o : DocumentOptions) : List ColourEntry :=
  o.colours.filterMap fun c => (ColourEntry.make c.name c.value c.model).toOption

/-- A traversal that succeeds has succeeded everywhere. -/
theorem mapM_ok {α β ε : Type} {f : α → Except ε β} {l : List α} {bs : List β}
    (h : l.mapM f = .ok bs) : bs = l.filterMap fun a => (f a).toOption := by
  induction l generalizing bs with
  | nil =>
    cases h
    rfl
  | cons a l ih =>
    rw [List.mapM_cons] at h
    cases ha : f a with
    | error e =>
      rw [ha] at h
      cases h
    | ok b =>
      cases hl : l.mapM f with
      | error e =>
        rw [ha, hl] at h
        cases h
      | ok rest =>
        rw [ha, hl] at h
        obtain rfl : b :: rest = bs := Except.ok.inj h
        rw [List.filterMap_cons, ha, ← ih hl]
        rfl

/-- Options that are admitted have no malformed colour. -/
theorem admitted_ok {o : DocumentOptions} {entries : List ColourEntry}
    (h : admitted o = .ok entries) : entries = colourEntries o := by
  rw [admitted] at h
  split at h
  · cases h
  · cases ho : overrides o with
    | error e =>
      rw [ho] at h
      cases h
    | ok found =>
      rw [ho] at h
      obtain rfl : found = entries := Except.ok.inj h
      exact mapM_ok ho

/-! ### The built-in names -/

theorem builtInCounters_checked :
    ∀ name ∈ builtInCounters, checkControlWord .counter name = .ok () := by
  simp only [builtInCounters, List.forall_mem_cons]
  exact ⟨rfl, rfl, List.forall_mem_nil _⟩

theorem builtInStyles_made :
    ∀ s ∈ builtInStyles, StyleEntry.make s.1 s.2.1 s.2.2 = .ok ⟨s.1, s.2.1, s.2.2⟩ := by
  simp only [builtInStyles, List.forall_mem_cons]
  exact ⟨rfl, rfl, rfl, rfl, List.forall_mem_nil _⟩

/-- The values of the built-in colours are in normal form already. -/
theorem builtInColours_made :
    ∀ c ∈ builtInColours, ColourEntry.make c.1 c.2 .html = .ok ⟨c.1, c.2, .html⟩ := by
  simp only [builtInColours, List.forall_mem_cons]
  exact ⟨rfl, rfl, rfl, rfl, rfl, List.forall_mem_nil _⟩

theorem addCounter_builtIn {name : String} (h : name ∈ builtInCounters) (d : Document) :
    (addCounter name).on d = (.ok (), d.register (.counter name)) := by
  rw [addCounter_on, builtInCounters_checked name h]
  rfl

theorem addStyle_builtIn {s : String × String × String} (h : s ∈ builtInStyles) (d : Document) :
    (addStyle s.1 s.2.1 s.2.2).on d = (.ok (), d.register (.style ⟨s.1, s.2.1, s.2.2⟩)) := by
  rw [addStyle_on, builtInStyles_made s h]
  rfl

theorem addColour_builtIn {c : String × String} (h : c ∈ builtInColours) (d : Document) :
    (addColour c.1 c.2 .html).on d = (.ok (), d.register (.colour ⟨c.1, c.2, .html⟩)) := by
  rw [addColour_on, builtInColours_made c h]
  rfl

/-! ### The effect of starting over -/

/-- All that is registered when a document starts, in one step. -/
theorem registrations_on {α : Type} (entries : List ColourEntry) (next : Edit α) (d : Document) :
    Edit.on (do
        builtInCounters.forM addCounter
        builtInStyles.forM fun (name, opening, closing) => addStyle name opening closing
        builtInColours.forM fun (name, value) => addColour name value .html
        entries.forM registerColour
        next) d
      = next.on ((builtIns ++ entries.map Registration.colour).foldl register d) := by
  rw [Edit.on_bind_ok (Edit.on_forM (fun _ h d => addCounter_builtIn h d) d),
    Edit.on_bind_ok (Edit.on_forM (fun _ h d => addStyle_builtIn h d) _),
    Edit.on_bind_ok (Edit.on_forM (fun _ h d => addColour_builtIn h d) _),
    Edit.on_bind_ok (Edit.on_forM (fun entry _ d => registerColour_on entry d) _),
    builtIns, List.foldl_append, List.foldl_append, List.foldl_append, List.foldl_map,
    List.foldl_map, List.foldl_map, List.foldl_map]

theorem body_foldl_register (l : List Registration) (d : Document) :
    (l.foldl register d).buffer.body = d.buffer.body := by
  induction l generalizing d with
  | nil => rfl
  | cons r l ih => rw [List.foldl_cons, ih, body_register]

theorem system_foldl_register (l : List Registration) (d : Document) :
    (l.foldl register d).buffer.system = d.buffer.system := by
  induction l generalizing d with
  | nil => rfl
  | cons r l ih => rw [List.foldl_cons, ih, system_register]

/-- Registering does not look at what is set last, so the order of the two is free. -/
theorem register_finish (o : DocumentOptions) (d : Document) (r : Registration) :
    register (finish o d) r = finish o (register d r) := by
  cases r with
  | counter name =>
    by_cases hc : d.counters.contains name = true
    · rw [register_declared hc]
      exact if_pos hc
    · rw [register_undeclared hc]
      exact if_neg hc
  | style entry => rfl
  | colour entry => rfl
  | command entry => rfl

/-- What is set last hides what a cleared document still has of the old one. -/
theorem finish_foldl_register (o : DocumentOptions) (l : List Registration) {d d' : Document}
    (h : finish o d = finish o d') :
    finish o (l.foldl register d) = finish o (l.foldl register d') := by
  rw [← List.foldl_hom (finish o) (register_finish o), h,
    List.foldl_hom (finish o) (register_finish o)]

/-- **Starting over.** It fails with the first fault of the options and leaves the
document alone, or it succeeds and leaves a document that depends on nothing but the
options. -/
theorem init_on (o : DocumentOptions) (d : Document) :
    (init o).on d
      = match admitted o with
        | .ok entries => (.ok (), opened o entries)
        | .error e => (.error e, d) := by
  rw [init]
  cases ho : admitted o with
  | error e => exact Edit.on_bind_error ((checkOptions_on o d).trans (by rw [ho])) _
  | ok entries =>
    -- From here on every step succeeds, so each is one equation.
    rw [Edit.on_bind_ok ((checkOptions_on o d).trans (by rw [ho])),
      Edit.on_bind_ok (Edit.on_modify _ _), Edit.on_bind_ok (Edit.on_appendAll _ _ _),
      Edit.on_bind_ok (Edit.on_append _ _ _), registrations_on,
      Edit.on_bind_ok (Edit.on_appendAll _ _ _), Edit.on_modify]
    generalize hd : (builtIns ++ entries.map Registration.colour).foldl register _ = d'
    -- The body is still empty when the one of the options is put at its end.
    have hbody : d'.buffer.body = [] := by
      rw [← hd, body_foldl_register]
      rfl
    have hfinish : finish o d' = opened o entries := by
      rw [← hd, opened]
      exact finish_foldl_register o _ rfl
    simp only [← hfinish, finish, Buffer.replace, Buffer.fragments, hbody, List.nil_append]

/-- A new document is what starting over leaves. -/
theorem new_eq (o : DocumentOptions) :
    new o = (admitted o).map (opened o) := by
  rw [new, init_on]
  cases admitted o <;> rfl

/-- A new document was started with options that have no fault. -/
theorem new_ok {o : DocumentOptions} {d : Document} (h : new o = .ok d) :
    ∃ entries, admitted o = .ok entries ∧ d = opened o entries := by
  rw [new_eq] at h
  cases ho : admitted o with
  | error e =>
    rw [ho] at h
    cases h
  | ok entries =>
    rw [ho] at h
    exact ⟨entries, rfl, (Except.ok.inj h).symm⟩

/-- A document needs no options. -/
theorem new_default : new {} = .ok (opened {} []) := by
  rw [new_eq]
  rfl

theorem reset_on (d : Document) : reset.on d = (init d.options).on d := by
  rw [reset, Edit.on_bind_ok (Edit.on_get d)]

end Document

end Galley
