/-
`Proofs/Effect.lean` -- what a call amounts to.

There are some forty calls and far fewer things that they do: a call writes to the
body, takes something off it, steps a counter, registers, looks something up, starts
over, or moves the rendering state. `Operation.effect` says which of these a call is and
with which data, and `Effect.on` says in closed form what it answers and leaves.
`Operation.run_on` is the only proof that opens a call; what is preserved by every call
is then shown for the nine effects.
-/
import Galley.Document.Operation
import Galley.Proofs.Registration

set_option autoImplicit false

namespace Galley

/-! ## Effects -/

/-- The part of a document that look-ups read. -/
structure Registries where
  colours : ColourRegistry
  styles : StyleRegistry
  commands : CommandRegistry

/-- The registries of a document. -/
def Document.registries (d : Document) : Registries := ⟨d.colours, d.styles, d.commands⟩

/-- What a call does, apart from what it is called. -/
inductive Effect where
  /-- Puts a construct at the end of the body, unless it is refused. -/
  | write (construct : Except ValidationError Fragment)
  /-- Takes the last fragment off the body, if that is wanted. -/
  | remove (wanted : Bool)
  /-- Steps a counter and answers the fragment that says so. -/
  | advance (counter : String)
  /-- Steps a counter and writes a construct with the step and the number in it. -/
  | number (counter : String) (construct : Fragment → Fragment → Fragment)
  | register (r : Except Registry.Error Registration)
  | read (answer : Registries → Except DocumentError Fragment)
  /-- Starts over, with other options or with those of the document. -/
  | start (options : Option DocumentOptions)
  | snapshot
  | settle (success : Bool)

namespace Effect

/-- What an effect answers, and the document after it. -/
def on (d : Document) : Effect → Except DocumentError Answer × Document
  | write (.ok fragment) => (.ok .done, { d with buffer := d.buffer.append .body fragment })
  | write (.error e) => (.error (.validation e), d)
  | remove true =>
    (.ok (.removed (d.buffer.removeLast .body).1),
      { d with buffer := (d.buffer.removeLast .body).2 })
  | remove false => (.ok (.removed none), d)
  | advance counter =>
    match d.counters.step counter with
    | .ok (step, counters) => (.ok (.fragment step), { d with counters })
    | .error e => (.error (.ofRegistry e), d)
  | number counter construct =>
    match d.counters.step counter with
    | .ok (step, counters) =>
      let fragment := construct step (Tex.control ("the" ++ counter))
      (.ok .done, { d with counters, buffer := d.buffer.append .body fragment })
    | .error e => (.error (.ofRegistry e), d)
  | register r => ((d.submit r).1.map fun _ => .done, (d.submit r).2)
  | read answer => ((answer d.registries).map .fragment, d)
  | start options =>
    match Document.admitted (options.getD d.options) with
    | .ok entries => (.ok .done, Document.opened (options.getD d.options) entries)
    | .error e => (.error e, d)
  | snapshot => (.ok (.snapshot d.source), { d with state := .rendering })
  | settle success => (.ok .done, { d with state := if success then .rendered else .failed })

end Effect

/-! ## The effects of the calls -/

namespace Operation

open Text

/-- The effect of a call. -/
def effect : Operation → Effect
  | push text => .write (.ok text)
  | pushIf condition text => .write (.ok (putIf condition text))
  | pushIfElse condition a b => .write (.ok (putIfElse condition a b))
  | cleanPush text => .write (.ok (clean text))
  | cleanPushIf condition text => .write (.ok (cleanPutIf condition text))
  | cleanPushIfElse condition a b => .write (.ok (cleanPutIfElse condition a b))
  | pop => .remove true
  | popIf condition => .remove condition
  | beginDocument => .write (.ok Construct.beginDocument)
  | endDocument => .write (.ok Construct.endDocument)
  | table columns rows => .write (Construct.table columns rows)
  | list items => .write (Construct.list items)
  | heading title => .write (.ok (Construct.heading title))
  | subheading title => .write (.ok (Construct.subheading title))
  | definition term body => .write (.ok (Construct.definition term body))
  | lineBreak => .write (.ok Construct.lineBreak)
  | pageBreak => .write (.ok Construct.pageBreak)
  | plain text => .write (.ok (Construct.plain text))
  | indented text => .write (.ok (Construct.indented text))
  | bold text => .write (.ok (Construct.bold text))
  | underlined text => .write (.ok (Construct.underlined text))
  | paragraph label text => .write (.ok (Construct.paragraph label text))
  | numberedParagraph label text =>
    .number Counters.paragraphs fun step number =>
      Construct.numberedParagraph step number label text
  | numberedHeading title =>
    .number Counters.headings fun step number => Construct.numberedHeading step number title
  | floatingHeading side text => .write (.ok (Construct.floatingHeading side text))
  | addColour name value model => .register ((ColourEntry.make name value model).map .colour)
  | addStyle name opening closing => .register ((StyleEntry.make name opening closing).map .style)
  | addCommand name arity body => .register ((CommandEntry.make name arity body).map .command)
  | addCounter name =>
    .register ((Registry.checkControlWord .counter name).map fun _ => .counter name)
  | colour name =>
    .read fun g => ((g.colours.get name).mapError .ofRegistry).map ColourEntry.switch
  | style name text =>
    .read fun g => ((g.styles.get name).mapError .ofRegistry).map fun entry => entry.apply text
  | call name arguments =>
    .read fun g =>
      ((g.commands.get name).bind fun entry => entry.call arguments).mapError .ofRegistry
  | stepCounter name => .advance name
  | styleText text flags => .read fun g => Styler.style ⟨g.colours, g.styles⟩ text flags
  | revise preset history n m =>
    .read fun g => Styler.applyPreset ⟨g.colours, g.styles⟩ preset history n m
  | init options => .start (some options)
  | reset => .start none
  | startRender => .snapshot
  | completeRender success => .settle success

/-! ## Conditional pushes

A push with a condition chooses its text by itself, and the effects are told with the
conditional texts, which need no document. The two agree, also where the one cleans both
texts and the other cleans the one that is chosen. A fragment is added in either case. -/

theorem pushIf_eq (condition : Bool) (text : String) :
    Document.pushIf condition text = Document.push (putIf condition text) := rfl

theorem pushIfElse_eq (condition : Bool) (a b : String) :
    Document.pushIfElse condition a b = Document.push (putIfElse condition a b) := rfl

theorem cleanPushIf_eq (condition : Bool) (text : String) :
    Document.cleanPushIf condition text = Document.push (cleanPutIf condition text) := rfl

theorem cleanPushIfElse_eq (condition : Bool) (a b : String) :
    Document.cleanPushIfElse condition a b = Document.push (cleanPutIfElse condition a b) := by
  rw [Document.cleanPushIfElse, cleanPutIfElse, apply_ite clean]

/-! ## Each call has its effect -/

section Families

variable (d : Document)

theorem place_on (construct : Except ValidationError Fragment) :
    Edit.on (do Document.place construct; pure Answer.done) d = (Effect.write construct).on d := by
  cases construct <;> rfl

theorem registration_on {x : Edit Unit} {r : Except Registry.Error Registration}
    (h : x.on d = d.submit r) :
    Edit.on (do x; pure Answer.done) d = (Effect.register r).on d := by
  rw [Edit.on_bind_pure x fun _ => Answer.done, h]
  rfl

theorem lookup_on {x : Edit Fragment} {answer : Registries → Except DocumentError Fragment}
    (h : x.on d = (answer d.registries, d)) :
    Edit.on (do pure (Answer.fragment (← x))) d = (Effect.read answer).on d := by
  rw [Edit.on_bind_pure x, h]
  rfl

theorem stepCounter_on (counter : String) :
    (Document.stepCounter counter).on d
      = match d.counters.step counter with
        | .ok (step, counters) => (.ok step, { d with counters })
        | .error e => (.error (.ofRegistry e), d) := by
  rw [Document.stepCounter, Edit.on_bind_ok (Edit.on_get d), Edit.on_ofRegistry_bind]
  cases d.counters.step counter <;> rfl

theorem advance_on (counter : String) :
    Edit.on (do pure (Answer.fragment (← Document.stepCounter counter))) d
      = (Effect.advance counter).on d := by
  rw [Edit.on_bind_pure, stepCounter_on, Effect.on]
  cases d.counters.step counter <;> rfl

/-- The number is looked up first, and a counter that has none has no step either. -/
theorem placeNumbered_on (counter : String) (construct : Fragment → Fragment → Fragment) :
    Edit.on (do Document.placeNumbered counter construct; pure Answer.done) d
      = (Effect.number counter construct).on d := by
  rw [Edit.on_bind_pure _ fun _ => Answer.done, Document.placeNumbered,
    Edit.on_bind_ok (Edit.on_get d), Edit.on_ofRegistry_bind, Effect.on, Counters.reference]
  by_cases hc : d.counters.contains counter = true
  · rw [if_pos hc]
    simp only
    rw [Edit.on_bind, stepCounter_on]
    cases d.counters.step counter <;> rfl
  · rw [if_neg hc, Counters.step, if_neg hc]
    rfl

theorem start_on {x : Edit Unit} {options : Option DocumentOptions}
    (h : x.on d = (Document.init (options.getD d.options)).on d) :
    Edit.on (do x; pure Answer.done) d = (Effect.start options).on d := by
  rw [Edit.on_bind_pure x fun _ => Answer.done, h, Document.init_on, Effect.on]
  cases Document.admitted (options.getD d.options) <;> rfl

end Families

/-- **A call is its effect.** -/
theorem run_on (op : Operation) (d : Document) : op.run.on d = op.effect.on d := by
  cases op with
  | pushIf condition text => rw [run, pushIf_eq]; rfl
  | pushIfElse condition a b => rw [run, pushIfElse_eq]; rfl
  | cleanPushIf condition text => rw [run, cleanPushIf_eq]; rfl
  | cleanPushIfElse condition a b => rw [run, cleanPushIfElse_eq]; rfl
  | popIf condition => cases condition <;> rfl
  | table columns rows => exact place_on d _
  | list items => exact place_on d _
  | numberedParagraph label text => exact placeNumbered_on d _ _
  | numberedHeading title => exact placeNumbered_on d _ _
  | addColour name value model => exact registration_on d (Document.addColour_on ..)
  | addStyle name opening closing => exact registration_on d (Document.addStyle_on ..)
  | addCommand name arity body => exact registration_on d (Document.addCommand_on ..)
  | addCounter name => exact registration_on d (Document.addCounter_on ..)
  | colour name =>
    refine lookup_on d ?_
    rw [Document.colour, Edit.on_bind_ok (Edit.on_get d), Edit.on_bind_pure, Edit.on_ofRegistry]
    rfl
  | style name text =>
    refine lookup_on d ?_
    rw [Document.style, Edit.on_bind_ok (Edit.on_get d), Edit.on_bind_pure, Edit.on_ofRegistry]
    rfl
  | call name arguments =>
    refine lookup_on d ?_
    rw [Document.call, Edit.on_bind_ok (Edit.on_get d), Edit.on_ofRegistry_bind]
    -- Both the look-up and the number of arguments can be at fault.
    show _ = (((d.commands.get name).bind _).mapError _, d)
    cases d.commands.get name with
    | error e => rfl
    | ok entry => exact Edit.on_ofRegistry _ d
  | stepCounter name => exact advance_on d name
  | styleText text flags => exact lookup_on d (Edit.on_ofResult _ d)
  | revise preset history n m => exact lookup_on d (Edit.on_ofResult _ d)
  | init options => exact start_on d rfl
  | reset => exact start_on d (Document.reset_on d)
  -- What is left writes a construct that cannot be refused, or sets the state.
  | _ => rfl

/-! ## Histories -/

/-- The calls of a list and what each of them answers, made on a document in order. -/
def transcript : List Operation → Document → List (Operation × Except DocumentError Answer)
  | [], _ => []
  | op :: operations, d => (op, (op.run.on d).1) :: transcript operations (op.run.on d).2

end Operation

end Galley
