/-
`Colour.lean` -- colours by hexadecimal digits, and the models a value is written in.

A value of the `HTML` model is read as a colour and written back in one normal form,
six upper-case digits, so that two spellings of a colour give one definition. Values
of the other models are text for the typesetter. The reader trims, drops at most one
`#` and then insists on three or six ASCII digits; which fault is reported first is
part of its contract.
-/
import Galley.Text.Blank
import Galley.Text.Hex

set_option autoImplicit false

namespace Galley

/-! ## Models -/

/-- The model that a colour value is written in. -/
inductive ColourModel where
  /-- Six hexadecimal digits. -/
  | html
  /-- Integer components from 0 to 255. -/
  | rgb
  /-- Fractional components from 0 to 1. -/
  | rgbFraction
  | cmyk
  | gray
  deriving DecidableEq, Repr, Inhabited

/-- The name of a model in a colour definition. -/
def ColourModel.name : ColourModel → String
  | .html => "HTML"
  | .rgb => "RGB"
  | .rgbFraction => "rgb"
  | .cmyk => "cmyk"
  | .gray => "gray"

/-- Why a text is no colour and no colour model. -/
inductive HexFault where
  | nonAscii
  | notADigit (c : Char)
  | length (actual : Nat)
  deriving DecidableEq, Repr

/-- A text that names no colour, or no model. -/
inductive ColourError where
  | invalidHex (value : String) (fault : HexFault)
  | unknownModel (name : String)
  deriving DecidableEq, Repr

/-- The reason given for a fault. -/
def HexFault.reason : HexFault → String
  | .nonAscii => "non-ASCII characters"
  | .notADigit c => "'" ++ c.toString ++ "' is not a hex digit"
  | .length actual => s!"expected 3 or 6 hex digits, got {actual}"

/-- The text of a colour error. -/
def ColourError.message : ColourError → String
  | .invalidHex value fault => "Invalid hex colour '" ++ value ++ "': " ++ fault.reason
  | .unknownModel name => "Unknown colour model: " ++ name

/-- The model of a name. Case matters where it tells two models apart. -/
def ColourModel.ofName (name : String) : Except ColourError ColourModel :=
  match name with
  | "HTML" | "html" => .ok .html
  | "RGB" => .ok .rgb
  | "rgb" => .ok .rgbFraction
  | "cmyk" | "CMYK" => .ok .cmyk
  | "gray" | "grey" => .ok .gray
  | _ => .error (.unknownModel name)

/-! ## Colours -/

/-- A colour by its components. -/
structure Colour where
  red : UInt8
  green : UInt8
  blue : UInt8
  deriving DecidableEq, Repr, Inhabited

namespace Colour

/-- The component of two digit values. -/
def component (high low : Nat) : UInt8 := UInt8.ofNat (high * 16 + low)

/-- The digits of a colour: its text without blanks around it and one leading `#`. -/
def hexPart (s : String) : List Char :=
  match Text.trimBlanks s.toList with
  | '#' :: rest => rest
  | cs => cs

/-- The colour of three or six digit values; in the short form each digit counts twice. -/
def ofValues? : List Nat → Option Colour
  | [r, g, b] => some ⟨component r r, component g g, component b b⟩
  | [r, r', g, g', b, b'] => some ⟨component r r', component g g', component b b'⟩
  | _ => none

/-- Reads a colour. A character outside ASCII is reported before any other fault, then
the first character that is no digit, then the number of digits. -/
def parseHex (s : String) : Except ColourError Colour :=
  let hex := hexPart s
  if hex.any fun c => 0x80 ≤ c.toNat then .error (.invalidHex s .nonAscii)
  else
    match hex.find? fun c => (Text.hexValue? c).isNone with
    | some c => .error (.invalidHex s (.notADigit c))
    | none =>
      match ofValues? (hex.filterMap Text.hexValue?) with
      | some colour => .ok colour
      | none => .error (.invalidHex s (.length hex.length))

/-- The two digits of a component. -/
def componentDigits (n : UInt8) : List Char :=
  [Text.upperHexDigit (n.toNat / 16), Text.upperHexDigit (n.toNat % 16)]

/-- The normal form: six upper-case digits. -/
def toHtml (c : Colour) : String :=
  String.ofList (componentDigits c.red ++ componentDigits c.green ++ componentDigits c.blue)

/-- The normal form after a `#`. -/
def text (c : Colour) : String := "#" ++ c.toHtml

end Colour

end Galley
