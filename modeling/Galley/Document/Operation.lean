/-
`Document/Operation.lean` -- everything that can be done to a document.

The calls are the constructors of one type, so that a history of a document is a list
and a statement about every history is an induction. `Operation.run` says what each
call does and what it answers. Content goes to the body, registrations go to the
definitions, and the calls that only look something up change nothing.
-/
import Galley.Construct
import Galley.Document.Basic
import Galley.Revision.Styler

set_option autoImplicit false

namespace Galley

/-! ## Calls on a document -/

namespace Document

open Edit

/-- Puts a fragment at the end of the body. -/
def push (text : String) : Edit Unit := append .body text

/-- Puts a text at the end of the body, or an empty fragment. -/
def pushIf (condition : Bool) (text : String) : Edit Unit :=
  append .body (if condition then text else "")

/-- Puts one of two texts at the end of the body. -/
def pushIfElse (condition : Bool) (whenTrue whenFalse : String) : Edit Unit :=
  append .body (if condition then whenTrue else whenFalse)

/-- Puts a cleaned text at the end of the body. -/
def cleanPush (text : String) : Edit Unit := push (Text.clean text)

/-- Puts a cleaned text at the end of the body, or an empty fragment. -/
def cleanPushIf (condition : Bool) (text : String) : Edit Unit :=
  push (if condition then Text.clean text else "")

/-- Cleans one of two texts and puts it at the end of the body. -/
def cleanPushIfElse (condition : Bool) (whenTrue whenFalse : String) : Edit Unit :=
  push (if condition then Text.clean whenTrue else Text.clean whenFalse)

/-- Removes the last fragment of the body. -/
def pop : Edit (Option Fragment) := do
  let d ← get
  let (last, buffer) := d.buffer.removeLast .body
  set { d with buffer := buffer }
  pure last

/-- Removes the last fragment of the body, if that is wanted. -/
def popIf (condition : Bool) : Edit (Option Fragment) :=
  if condition then pop else pure none

/-- Puts a construct at the end of the body, unless it is refused. -/
def place (construct : Except ValidationError Fragment) : Edit Unit := do
  push (← ofValidation construct)

/-- Advances a counter; the fragment that says so is answered and not written. -/
def stepCounter (name : String) : Edit Fragment := do
  let d ← get
  let (fragment, counters) ← ofRegistry (d.counters.step name)
  set { d with counters := counters }
  pure fragment

/-- Advances a counter and writes the construct that refers to it. -/
def placeNumbered (counter : String) (construct : Fragment → Fragment → Fragment) :
    Edit Unit := do
  let number ← ofRegistry ((← get).counters.reference counter)
  let step ← stepCounter counter
  push (construct step number)

/-- A paragraph numbered in the margin. -/
def numberedParagraph (label text : String) : Edit Unit :=
  placeNumbered Counters.paragraphs fun step number =>
    Construct.numberedParagraph step number label text

/-- A numbered article heading. -/
def numberedHeading (title : String) : Edit Unit :=
  placeNumbered Counters.headings fun step number =>
    Construct.numberedHeading step number title

/-- The switch to a registered colour. -/
def colour (name : String) : Edit Fragment := do
  let entry ← ofRegistry ((← get).colours.get name)
  pure entry.switch

/-- A text set in a registered style. -/
def style (name text : String) : Edit Fragment := do
  let entry ← ofRegistry ((← get).styles.get name)
  pure (entry.apply text)

/-- A call of a registered command. -/
def call (name : String) (arguments : List String) : Edit Fragment := do
  let entry ← ofRegistry ((← get).commands.get name)
  ofRegistry (entry.call arguments)

/-- The styler of the document. -/
def styler (d : Document) : Styler := ⟨d.colours, d.styles⟩

/-- A marked span. -/
def styleText (text : String) (flags : StyleFlags) : Edit Fragment := do
  ofResult ((← get).styler.style text flags)

/-- A marked version of a history. -/
def revise (preset : RevisionPreset) (history : List String) (n : Nat) (m : Option Nat) :
    Edit Fragment := do
  ofResult ((← get).styler.applyPreset preset history n m)

/-- Takes the snapshot that is to be typeset. -/
def startRender : Edit String := do
  modify fun d => { d with state := .rendering }
  pure (← get).source

/-- Records how rendering ended. -/
def completeRender (success : Bool) : Edit Unit :=
  modify fun d => { d with state := if success then .rendered else .failed }

end Document

/-! ## Operations and answers -/

/-- A call on a document. -/
inductive Operation where
  | push (text : String)
  | pushIf (condition : Bool) (text : String)
  | pushIfElse (condition : Bool) (whenTrue whenFalse : String)
  | cleanPush (text : String)
  | cleanPushIf (condition : Bool) (text : String)
  | cleanPushIfElse (condition : Bool) (whenTrue whenFalse : String)
  | pop
  | popIf (condition : Bool)
  | beginDocument
  | endDocument
  | table (columns : List String) (rows : List (List String))
  | list (items : List String)
  | heading (title : String)
  | subheading (title : String)
  | definition (term body : String)
  | lineBreak
  | pageBreak
  | plain (text : String)
  | indented (text : String)
  | bold (text : String)
  | underlined (text : String)
  | paragraph (label text : String)
  | numberedParagraph (label text : String)
  | numberedHeading (title : String)
  | floatingHeading (side : Construct.Side) (text : String)
  | addColour (name value : String) (model : ColourModel)
  | addStyle (name opening closing : String)
  | addCommand (name : String) (arity : Nat) (body : String)
  | addCounter (name : String)
  | colour (name : String)
  | style (name text : String)
  | call (name : String) (arguments : List String)
  | stepCounter (name : String)
  | styleText (text : String) (flags : StyleFlags)
  | revise (preset : RevisionPreset) (history : List String) (n : Nat) (m : Option Nat)
  | init (options : DocumentOptions)
  | reset
  | startRender
  | completeRender (success : Bool)
  deriving DecidableEq

/-- What a call answers. -/
inductive Answer where
  | done
  | fragment (text : Fragment)
  /-- What was removed from the body, if there was anything. -/
  | removed (last : Option Fragment)
  | snapshot (source : String)
  deriving DecidableEq, Repr

namespace Operation

/-- What a call does and answers. -/
def run : Operation → Edit Answer
  | push text => do Document.push text; pure .done
  | pushIf condition text => do Document.pushIf condition text; pure .done
  | pushIfElse condition a b => do Document.pushIfElse condition a b; pure .done
  | cleanPush text => do Document.cleanPush text; pure .done
  | cleanPushIf condition text => do Document.cleanPushIf condition text; pure .done
  | cleanPushIfElse condition a b => do Document.cleanPushIfElse condition a b; pure .done
  | pop => do pure (.removed (← Document.pop))
  | popIf condition => do pure (.removed (← Document.popIf condition))
  | beginDocument => do Document.push Construct.beginDocument; pure .done
  | endDocument => do Document.push Construct.endDocument; pure .done
  | table columns rows => do Document.place (Construct.table columns rows); pure .done
  | list items => do Document.place (Construct.list items); pure .done
  | heading title => do Document.push (Construct.heading title); pure .done
  | subheading title => do Document.push (Construct.subheading title); pure .done
  | definition term body => do Document.push (Construct.definition term body); pure .done
  | lineBreak => do Document.push Construct.lineBreak; pure .done
  | pageBreak => do Document.push Construct.pageBreak; pure .done
  | plain text => do Document.push (Construct.plain text); pure .done
  | indented text => do Document.push (Construct.indented text); pure .done
  | bold text => do Document.push (Construct.bold text); pure .done
  | underlined text => do Document.push (Construct.underlined text); pure .done
  | paragraph label text => do Document.push (Construct.paragraph label text); pure .done
  | numberedParagraph label text => do Document.numberedParagraph label text; pure .done
  | numberedHeading title => do Document.numberedHeading title; pure .done
  | floatingHeading side text => do Document.push (Construct.floatingHeading side text); pure .done
  | addColour name value model => do Document.addColour name value model; pure .done
  | addStyle name opening closing => do Document.addStyle name opening closing; pure .done
  | addCommand name arity body => do Document.addCommand name arity body; pure .done
  | addCounter name => do Document.addCounter name; pure .done
  | colour name => do pure (.fragment (← Document.colour name))
  | style name text => do pure (.fragment (← Document.style name text))
  | call name arguments => do pure (.fragment (← Document.call name arguments))
  | stepCounter name => do pure (.fragment (← Document.stepCounter name))
  | styleText text flags => do pure (.fragment (← Document.styleText text flags))
  | revise preset history n m => do pure (.fragment (← Document.revise preset history n m))
  | init options => do Document.init options; pure .done
  | reset => do Document.reset; pure .done
  | startRender => do pure (.snapshot (← Document.startRender))
  | completeRender success => do Document.completeRender success; pure .done

/-- The document after a list of calls, each made whether or not the earlier ones
succeeded. -/
def runAll (operations : List Operation) (d : Document) : Document :=
  operations.foldl (fun d operation => ((run operation).on d).2) d

end Operation

end Galley
