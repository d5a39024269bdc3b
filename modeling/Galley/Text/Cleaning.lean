/-
`Text/Cleaning.lean` -- raw text made safe for the source.

Cleaning replaces nine special characters one after the other and then drops every
backslash, also those that the replacements brought in. So a clean text cannot start a
control sequence; what is left of a replacement is its letters and its empty group.
-/
set_option autoImplicit false

namespace Galley.Text

/-! ## The passes -/

/-- The replacements in their order: a character and what is put for it. -/
def substitutions : List (Char × List Char) :=
  [('^', "\\textasciicircum\x7b\x7d".toList),
   ('~', "\\textasciitilde\x7b\x7d".toList),
   ('\x7b', ['\\', '\x7b']),
   ('\x7d', ['\\', '\x7d']),
   ('_', ['\\', '_']),
   ('%', ['\\', '%']),
   ('$', ['\\', '$']),
   ('&', ['\\', '&']),
   ('#', ['\\', '#'])]

/-- One pass over the whole text: `replacement` for every `special`. -/
def substitute (cs : List Char) (special : Char) (replacement : List Char) : List Char :=
  cs.flatMap fun c => if c = special then replacement else [c]

/-- All passes in turn, then the backslashes dropped. -/
def cleanChars (cs : List Char) : List Char :=
  (substitutions.foldl (fun cs pass => substitute cs pass.1 pass.2) cs).filter (· ≠ '\\')

/-- A text cleaned for verbatim use in the source. -/
def clean (s : String) : String :=
  String.ofList (cleanChars s.toList)

/-- A text that may be absent, cleaned; nothing cleans to the empty text. -/
def cleanOptional (s : Option String) : String :=
  (s.map clean).getD ""

/-! ## Conditional texts -/

/-- A text, or nothing. -/
def putIf (condition : Bool) (s : String) : String :=
  if condition then s else ""

/-- One of two texts. -/
def putIfElse (condition : Bool) (whenTrue whenFalse : String) : String :=
  if condition then whenTrue else whenFalse

/-- A cleaned text, or nothing. -/
def cleanPutIf (condition : Bool) (s : String) : String :=
  if condition then clean s else ""

/-- One of two texts, cleaned. -/
def cleanPutIfElse (condition : Bool) (whenTrue whenFalse : String) : String :=
  clean (if condition then whenTrue else whenFalse)

end Galley.Text
