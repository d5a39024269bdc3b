/-
`Construct.lean` -- structured content as source text.

Every function here makes one fragment from its arguments alone; nothing is cleaned
and nothing is counted. Tables and lists are the only ones that refuse input: a table
needs a column and rows of one width, and a list has no more items than there are
letters to label them.
-/
import Galley.Document.Error
import Galley.Tex

set_option autoImplicit false

namespace Galley.Construct

open Tex

/-! ## Tables -/

/-- The first row that does not have `width` cells, as its position and its width. -/
def misfit? (width : Nat) (rows : List (List String)) : Option (Nat × Nat) :=
  (rows.zipIdx.find? fun (cells, _) => cells.length ≠ width).map fun (cells, row) =>
    (row, cells.length)

/-- The column types with bars around each. -/
def columnTypes (columns : List String) : String :=
  "| " ++ String.join (columns.map fun column => " " ++ column ++ " | ")

/-- A row between its rules. The first row is the head of the table. -/
def tableRow (cells : List String) (isHead : Bool) : String :=
  control "bottomrule" ++ "\n" ++ String.intercalate " & " cells ++ "\\\\" ++ "\n"
    ++ control "toprule" ++ "\n" ++ (if isHead then control "endhead" ++ "\n" else "")

/-- A bordered grid of the width of the text. -/
def table (columns : List String) (rows : List (List String)) : Except ValidationError Fragment :=
  if columns.isEmpty then .error .noColumns
  else
    match misfit? columns.length rows with
    | some (row, actual) => .error (.rowWidth row columns.length actual)
    | none =>
      let entries := rows.zipIdx.map fun (cells, row) => tableRow cells (row == 0)
      .ok (command "begin" ["tabularx", control "textwidth", columnTypes columns] ++ "\n"
        ++ String.join entries ++ "\n" ++ command "end" ["tabularx"] ++ "\n"
        ++ control "flushleft")

/-! ## Lists -/

/-- The labels of list items. -/
def labels : List Char := "abcdefghijklmnopqrstuvwxyz".toList

/-- The most items that a list can have. -/
def maxItems : Nat := 26

/-- An item with its label. -/
def listItem (label : Char) (item : String) : String :=
  group ("(" ++ label.toString ++ ")") ++ group item ++ "\n"

/-- A hanging list labelled by letters. -/
def list (items : List String) : Except ValidationError Fragment :=
  if maxItems < items.length then .error (.tooManyItems items.length maxItems)
  else
    .ok (control "lst" ++ "\n" ++ String.join (List.zipWith listItem labels items)
      ++ control "stoplst")

/-! ## Headings and paragraphs -/

/-- A heading. -/
def heading (title : String) : Fragment := "\n" ++ command "section*" [title] ++ "\n"

/-- A heading of the second level. -/
def subheading (title : String) : Fragment := "\n" ++ command "subsection*" [title] ++ "\n"

/-- A defined term and its meaning. -/
def definition (term body : String) : Fragment :=
  command "paragraph" ["\"" ++ term ++ "\"", body] ++ "\n"

/-- A line break. -/
def lineBreak : Fragment := control " " ++ control "linebreak" ++ "\n"

/-- A page break. -/
def pageBreak : Fragment := control "pagebreak" ++ "\n"

/-- A paragraph without indent. -/
def plain (text : String) : Fragment := control "noindent" ++ " " ++ text ++ "\n"

/-- A paragraph with indent. -/
def indented (text : String) : Fragment := control "indent" ++ " " ++ text ++ "\n"

/-- Bold text. -/
def bold (text : String) : Fragment := command "textbf" [text] ++ "\n"

/-- Underlined text. -/
def underlined (text : String) : Fragment := command "underline" [text] ++ "\n"

/-- A paragraph with a label. -/
def paragraph (label text : String) : Fragment := command "paragraph" [label, text] ++ "\n"

/-! ## Numbered content -/

/-- A paragraph numbered in the margin. `step` advances the counter that `number`
refers to. -/
def numberedParagraph (step number : Fragment) (label text : String) : Fragment :=
  step ++ "\n" ++ control "reversemarginpar"
    ++ command "marginnote" [command "textbf" [number ++ " ."]] ++ bracket "0.9cm"
    ++ command "paragraph" [label] ++ control "nonfrenchspacing" ++ " " ++ text ++ "\n"

/-- A numbered article heading. -/
def numberedHeading (step number : Fragment) (title : String) : Fragment :=
  step ++ "\n"
    ++ command "subsubsection*"
      [control "bf" ++ " ARTICLE " ++ number ++ control " " ++ "-" ++ control " " ++ title]
    ++ "\n"

/-! ## Floating headings -/

/-- The side of the line that a floating heading stands on. -/
inductive Side where
  | left
  | right
  deriving DecidableEq, Repr

/-- What pushes a floating heading from the left. -/
def Side.before : Side → String
  | .right => control "hfill"
  | .left => ""

/-- What stands to the right of a floating heading. -/
def Side.after : Side → String
  | .right => control " "
  | .left => control "hfill" ++ control " "

/-- A bold box of fixed width on one side of the line. -/
def floatingHeading (side : Side) (text : String) : Fragment :=
  side.before
    ++ command "begin" ["minipage", control "dimexpr" ++ control "textwidth" ++ "-8cm"] ++ "\n"
    ++ control "parfillskip0pt" ++ "\n" ++ control "parindent0pt" ++ "\n"
    ++ control "fontdimen3" ++ control "font.25in" ++ "\n"
    ++ control "frenchspacing" ++ "\n" ++ control "bf" ++ " " ++ text ++ "\n"
    ++ command "end" ["minipage"] ++ side.after
    ++ control "linebreak" ++ " " ++ control " " ++ control "linebreak"
    ++ control "nonfrenchspacing" ++ "\n"

/-! ## The document itself -/

/-- Opens the body of the document. -/
def beginDocument : Fragment := command "begin" ["document"]

/-- Closes the body of the document. -/
def endDocument : Fragment := command "end" ["document"]

end Galley.Construct
