/-
`Document/Preamble.lean` -- the fixed opening of a document.

The system partition follows from the options alone: the class, the packages, where
pictures are, the configuration that the generated content needs and, for a draft, the
watermark. The definitions start with one block that provides hanging lists.
-/
import Galley.Document.Options

set_option autoImplicit false

namespace Galley.Preamble

open Tex

/-! ## Directives -/

/-- The document class with its options. -/
def documentClass (o : DocumentOptions) : Fragment :=
  control "documentclass"
    ++ (if o.classOptions.isEmpty then "" else bracket (String.intercalate "," o.classOptions))
    ++ group o.documentClass

/-- The directory of pictures, which is braced and ends with a slash. -/
def graphicsPath (path : String) : Fragment :=
  command "graphicspath" [group (if path.toList.getLast? = some '/' then path else path ++ "/")]

/-- A column type that wraps its setting around the flexible column. -/
def columnType (name setting : String) : Fragment :=
  command "newcolumntype" [name, ">" ++ group setting ++ "X"]

/-- Spacing, fonts and column types that the generated content uses. -/
def configuration : List Fragment :=
  [command "setlength" [control "parskip", "0em"],
   control "keepXColumns",
   command "newenvironment"
     ["frcseries", command "fontfamily" ["pzc"] ++ control "selectfont", ""],
   command "newcommand" [control "textcur"] ++ bracket "1"
     ++ group (group (control "itshape" ++ control "frcseries" ++ "#1")),
   columnType "g" (control "vfill" ++ control "centering"),
   columnType "Y" (control "vfill" ++ control "RaggedRight" ++ control "arraybackslash"),
   columnType "Z" (control "vfill" ++ control "centering" ++ control "arraybackslash")]

/-- The directives that stamp a watermark. -/
def watermark (mark : Watermark) : List Fragment :=
  [command "usepackage" ["draftwatermark"],
   command "SetWatermarkText" [mark.text],
   command "SetWatermarkScale" [mark.scale.text]]

/-- The watermark that is shown: none in a final document. -/
def shownWatermark (o : DocumentOptions) : List Fragment :=
  if o.isFinal then [] else (o.watermark.map watermark).getD []

/-- The system partition. -/
def system (o : DocumentOptions) : List Fragment :=
  [control "batchmode", documentClass o]
    ++ o.packages.map Package.directive
    ++ (o.graphicsPath.map graphicsPath).toList
    ++ configuration
    ++ shownWatermark o

/-! ## Hanging lists -/

/-- The text of lines. -/
def block (lines : List String) : Fragment := String.intercalate "\n" lines

/-- Commands that set pairs of a label and a text up to an end mark as a hanging
list. -/
def listCommands : Fragment :=
  block
    [control "makeatletter",
     command "newcommand" [control "lst"] ++ group (block
       ["",
        command "paragraph" [" "],
        control "hfill" ++ command "begin" ["minipage"]
          ++ group (control "dimexpr" ++ control "textwidth" ++ "-1cm"),
        command "begin" ["description"],
        control "setlength" ++ control "itemsep" ++ group "1em",
        control "@lsti",
        ""]),
     control "newcommand" ++ control "@lsti" ++ group (block
       ["",
        control "@ifnextchar" ++ control "stoplst" ++ group (control "@lstsend")
          ++ group (control "@lstii")]),
     control "newcommand" ++ control "@lstii" ++ bracket "2" ++ group (block
       ["",
        control "@lstiii" ++ group "#1" ++ group "#2" ++ control "hfill",
        control "@lsti",
        ""]),
     control "newcommand" ++ control "@lstiii" ++ bracket "2" ++ group (block
       [control "item" ++ bracket "#1" ++ "#2",
        ""]),
     control "newcommand" ++ control "@lstsend" ++ bracket "1" ++ group (block
       ["",
        command "end" ["description"],
        control "xdef" ++ control "tpd" ++ group (control "the" ++ control "prevdepth"),
        command "end" ["minipage"],
        ""]),
     control "makeatother"]

end Galley.Preamble
