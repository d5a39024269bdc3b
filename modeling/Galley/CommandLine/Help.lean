/-
`CommandLine/Help.lean` -- what the command says about itself.

The options are described once and laid out twice. The brief help has one line for an
option, with the descriptions in one column; the full help has a block for each, and
room to describe the values that an option can take.
-/
set_option autoImplicit false

namespace Galley.CommandLine.Help

/-! ## Descriptions -/

/-- The description of an option. -/
structure Entry where
  letter : Option Char
  name : String
  /-- What stands for the value, if the option takes one. -/
  value : Option String := none
  about : String
  default : Option String := none
  /-- The values to choose from, some of which are described. -/
  choices : List (String × Option String) := []

/-- The name of the command. -/
def commandName : String := "texloom"

/-- The version of the command. -/
def version : String := "0.1.0"

/-- What the command is. -/
def about : String :=
  "LaTeX document assembly engine with pluggable compilers and async PDF/DVI rendering"

/-- The options in the order in which they are shown; either help refers to the other. -/
def entries (full : Bool) : List Entry :=
  [{ letter := some 'f', name := "format", value := some "FORMAT", about := "Output format"
     default := some "tex"
     choices := [("tex", some "LaTeX source text"), ("pdf", none), ("dvi", none),
       ("base64", some "PDF, base64 encoded")] },
   { letter := some 'o', name := "output", value := some "OUTPUT"
     about := "Write to this file instead of stdout" },
   { letter := some 'c', name := "config", value := some "CONFIG"
     about := "JSON pipeline configuration" },
   { letter := none, name := "export"
     about := "Mark the document as final (no draft watermark)" },
   { letter := some 'h', name := "help"
     about := if full then "Print help (see a summary with '-h')"
       else "Print help (see more with '--help')" },
   { letter := some 'V', name := "version", about := "Print version" }]

/-! ## Layout -/

/-- So many blanks. -/
def blanks (n : Nat) : String := String.ofList (List.replicate n ' ')

/-- A text filled up with blanks to a width. -/
def padded (width : Nat) (s : String) : String := s ++ blanks (width - s.length)

/-- The largest length of some texts. -/
def widest (texts : List String) : Nat :=
  texts.foldl (fun n s => max n s.length) 0

namespace Entry

/-- How the option is written. -/
def usage (e : Entry) : String :=
  "  " ++ (match e.letter with
    | some c => "-" ++ c.toString ++ ", "
    | none => blanks 4)
    ++ "--" ++ e.name ++ ((e.value.map fun v => " <" ++ v ++ ">").getD "")

/-- The mark of a default. -/
def defaultMark (e : Entry) : Option String :=
  e.default.map fun v => "[default: " ++ v ++ "]"

/-- The mark of the values to choose from. -/
def choicesMark (e : Entry) : Option String :=
  if e.choices.isEmpty then none
  else some ("[possible values: " ++ String.intercalate ", " (e.choices.map Prod.fst) ++ "]")

/-- The line of the option in the brief help. -/
def line (width : Nat) (e : Entry) : String :=
  padded width e.usage ++ "  "
    ++ String.intercalate " " ([e.about] ++ e.defaultMark.toList ++ e.choicesMark.toList)

/-- The margin of the full help. -/
def margin : String := blanks 10

/-- The line of a value to choose. -/
def choiceLine (width : Nat) (choice : String × Option String) : String :=
  margin ++ "- " ++ (match choice.2 with
    | some text => padded (width + 2) (choice.1 ++ ":") ++ text
    | none => choice.1)

/-- The lines of the option in the full help. Described values stand in a block of their
own, and the default follows after a blank line within the margin. -/
def block (e : Entry) : List String :=
  [e.usage, margin ++ e.about]
    ++ (if e.choices.isEmpty then []
      else ["", margin ++ "Possible values:"]
        ++ e.choices.map (choiceLine (widest (e.choices.map Prod.fst))))
    ++ (match e.defaultMark with
      | some mark => [margin, margin ++ mark]
      | none => [])

end Entry

/-- The lines about the options; an empty one parts two blocks. -/
def optionLines (full : Bool) : List String :=
  let all := entries full
  if full then [""].intercalate (all.map Entry.block)
  else all.map (Entry.line (widest (all.map Entry.usage)))

/-- The help, in full or in brief. -/
def text (full : Bool) : String :=
  String.intercalate "\n"
    ([about, "", "Usage: " ++ commandName ++ " [OPTIONS]", "", "Options:"] ++ optionLines full)
    ++ "\n"

/-- The answer to the question for the version. -/
def versionText : String := commandName ++ " " ++ version ++ "\n"

end Galley.CommandLine.Help
