/-
`Document/Options.lean` -- what a document is started with.

The options fix the class, the packages, the colours that differ from the built-in
ones, what the body starts with, and an optional watermark that only drafts show. Each
field has a default, so a document needs no options at all.
-/
import Galley.Colour
import Galley.Decimal.Shortest
import Galley.Document.Error
import Galley.Tex

set_option autoImplicit false

namespace Galley

open Decimal

/-! ## Parts -/

/-- A package with its options. -/
structure Package where
  name : String
  options : List String := []
  deriving DecidableEq, Repr

/-- The directive that loads a package. -/
def Package.directive (p : Package) : Fragment :=
  Tex.control "usepackage"
    ++ (if p.options.isEmpty then "" else Tex.bracket (String.intercalate "," p.options))
    ++ Tex.group p.name

/-- A colour that is registered after the built-in ones. -/
structure ColourOverride where
  name : String
  value : String
  model : ColourModel := .html
  deriving DecidableEq, Repr

/-- A text stamped across the pages of a draft. -/
structure Watermark where
  text : String
  scale : Binary single := .ofNat false 1
  deriving DecidableEq, Repr

namespace Watermark

/-- The characters that the typesetter treats specially. -/
def specials : List Char := ['\\', '\x7b', '\x7d', '#', '$', '%', '&', '_', '^', '~']

/-- The text goes into the source as it is, so it may hold no special character; the
first one is reported. -/
def check (w : Watermark) : Except ValidationError Unit :=
  match w.text.toList.find? fun c => specials.contains c with
  | some found => .error (.watermarkText w.text found)
  | none => .ok ()

/-- Equality with the scales compared as numbers. -/
def same (a b : Watermark) : Bool := a.text == b.text && a.scale.numEq b.scale

end Watermark

/-! ## The options -/

/-- The packages that the generated source relies on. -/
def defaultPackages : List Package :=
  [⟨"babel", ["english"]⟩, ⟨"color", []⟩, ⟨"colortbl", []⟩,
   ⟨"geometry", ["letterpaper", "margin=1in"]⟩, ⟨"marginnote", []⟩, ⟨"parskip", []⟩,
   ⟨"multicol", []⟩, ⟨"tabularx", []⟩, ⟨"ltablex", []⟩, ⟨"booktabs", []⟩, ⟨"ragged2e", []⟩,
   ⟨"ifmtarg", []⟩, ⟨"etoolbox", []⟩, ⟨"graphicx", []⟩, ⟨"xcolor", []⟩, ⟨"soul", []⟩,
   ⟨"ifthen", []⟩]

/-- What a document is started with. -/
structure DocumentOptions where
  /-- A final document shows no watermark. -/
  isFinal : Bool := false
  graphicsPath : Option String := none
  colours : List ColourOverride := []
  body : List Fragment := []
  documentClass : String := "article"
  classOptions : List String := []
  packages : List Package := defaultPackages
  watermark : Option Watermark := none
  deriving DecidableEq, Repr

namespace DocumentOptions

/-- The options with one more colour. -/
def addColour (o : DocumentOptions) (colour : ColourOverride) : DocumentOptions :=
  { o with colours := o.colours ++ [colour] }

/-- The options with one more option of the class. -/
def addClassOption (o : DocumentOptions) (option : String) : DocumentOptions :=
  { o with classOptions := o.classOptions ++ [option] }

/-- The options with one more package. -/
def addPackage (o : DocumentOptions) (package : Package) : DocumentOptions :=
  { o with packages := o.packages ++ [package] }

/-- Equality with the scales of the watermarks compared as numbers. -/
def same (a b : DocumentOptions) : Bool :=
  let plain (o : DocumentOptions) := { o with watermark := none }
  let marks := match a.watermark, b.watermark with
    | none, none => true
    | some v, some w => v.same w
    | _, _ => false
  plain a == plain b && marks

end DocumentOptions

end Galley
