/-
`Press/Schema.lean` -- configurations and their parts in JSON.

Each type is read by the names of its fields, which defaults they have and how each is
read. Reading is strict about types and lenient about order, unknown members and, for a
colour, two further names. Writing puts every field in order; what is absent is `null`, and a
package without options leaves them out.
-/
import Galley.Json.Decoding
import Galley.Json.Parser
import Galley.Press.Config
import Galley.Revision.Flags

set_option autoImplicit false

namespace Galley

open Json

/-! ## Choices -/

namespace ColourModel

/-- Reads the name of a model. -/
def ofJson? (j : Json) : Option ColourModel :=
  match asName? j with
  | some "HTML" | some "html" => some .html
  | some "RGB" => some .rgb
  | some "rgb" => some .rgbFraction
  | some "cmyk" => some .cmyk
  | some "gray" => some .gray
  | _ => none

/-- Writes the name of a model. -/
def toJson (m : ColourModel) : Json := Json.text m.name

end ColourModel

namespace BinaryFormat

/-- Reads the name of a binary format. -/
def ofJson? (j : Json) : Option BinaryFormat :=
  match asName? j with
  | some "pdf" => some .pdf
  | some "dvi" => some .dvi
  | _ => none

/-- Writes the name of a binary format. -/
def toJson (f : BinaryFormat) : Json := Json.text f.name

end BinaryFormat

namespace OutputFormat

/-- Reads the name of a render target. -/
def ofJson? (j : Json) : Option OutputFormat :=
  match asName? j with
  | some "source" => some .source
  | some "pdf" => some .pdf
  | some "dvi" => some .dvi
  | _ => none

/-- Writes the name of a render target. -/
def toJson : OutputFormat → Json
  | .source => Json.text "source"
  | .pdf => Json.text "pdf"
  | .dvi => Json.text "dvi"

end OutputFormat

/-! ## Flags -/

namespace StyleFlags

/-- The fields of flags. -/
def fields : List FieldNames :=
  [["new"], ["old"], ["eq"], ["neq"], ["cl"], ["st"], ["bf"], ["it"], ["ul"]]

/-- Reads flags; a flag that is not given is not set. -/
def ofJson? (j : Json) : Option StyleFlags := do
  let flag := defaulted false asBool?
  match ← slots? fields j with
  | [new, old, eq, neq, cl, st, bf, it, ul] =>
    pure
      { new := ← flag new, old := ← flag old, eq := ← flag eq, neq := ← flag neq
        clean := ← flag cl, strikeout := ← flag st, bold := ← flag bf, italic := ← flag it
        underline := ← flag ul }
  | _ => none

/-- Writes flags. -/
def toJson (f : StyleFlags) : Json :=
  record [("new", .bool f.new), ("old", .bool f.old), ("eq", .bool f.eq), ("neq", .bool f.neq),
    ("cl", .bool f.clean), ("st", .bool f.strikeout), ("bf", .bool f.bold), ("it", .bool f.italic),
    ("ul", .bool f.underline)]

end StyleFlags

/-! ## Document options -/

/-- Writes texts. -/
def textsToJson (texts : List String) : Json := .array (texts.map Json.text)

/-- Writes a text that may be absent. -/
def optionalTextToJson (s : Option String) : Json := (s.map Json.text).getD .null

namespace Package

/-- The fields of a package. -/
def fields : List FieldNames := [["name"], ["options"]]

/-- Reads a package. -/
def ofJson? (j : Json) : Option Package := do
  match ← slots? fields j with
  | [name, options] =>
    pure { name := ← required asText? name, options := ← defaulted [] (asList? asText?) options }
  | _ => none

/-- Writes a package. -/
def toJson (p : Package) : Json :=
  record (("name", Json.text p.name) ::
    (if p.options.isEmpty then [] else [("options", textsToJson p.options)]))

end Package

namespace ColourOverride

/-- The fields of a colour. -/
def fields : List FieldNames := [["name"], ["value", "val"], ["model", "type"]]

/-- Reads a colour. -/
def ofJson? (j : Json) : Option ColourOverride := do
  match ← slots? fields j with
  | [name, value, model] =>
    pure
      { name := ← required asText? name, value := ← required asText? value
        model := ← defaulted .html ColourModel.ofJson? model }
  | _ => none

/-- Writes a colour. -/
def toJson (c : ColourOverride) : Json :=
  record [("name", Json.text c.name), ("value", Json.text c.value), ("model", c.model.toJson)]

end ColourOverride

namespace Watermark

/-- The fields of a watermark. -/
def fields : List FieldNames := [["text"], ["scale"]]

/-- Reads a watermark. -/
def ofJson? (j : Json) : Option Watermark := do
  match ← slots? fields j with
  | [text, scale] =>
    pure
      { text := ← required asText? text
        scale := ← defaulted (.ofNat false 1) asSingle? scale }
  | _ => none

/-- Writes a watermark. A scale is written with the fewest digits that read back, and with a
point or an exponent even if it is whole. One that is no finite number is `null`. -/
def toJson (w : Watermark) : Json :=
  record [("text", Json.text w.text),
    ("scale", ((Number.ofBinary w.scale).map Json.number).getD .null)]

end Watermark

namespace DocumentOptions

/-- The fields of document options. -/
def fields : List FieldNames :=
  [["export"], ["graphicsPath"], ["colours"], ["body"], ["documentClass"], ["classOptions"],
   ["packages"], ["watermark"]]

/-- Reads document options; a field that is not given has its default. -/
def ofJson? (j : Json) : Option DocumentOptions := do
  match ← slots? fields j with
  | [isFinal, graphicsPath, colours, body, documentClass, classOptions, packages, watermark] =>
    pure
      { isFinal := ← defaulted false asBool? isFinal
        graphicsPath := ← defaulted none (asOptional? asText?) graphicsPath
        colours := ← defaulted [] (asList? ColourOverride.ofJson?) colours
        body := ← defaulted [] (asList? asText?) body
        documentClass := ← defaulted "article" asText? documentClass
        classOptions := ← defaulted [] (asList? asText?) classOptions
        packages := ← defaulted defaultPackages (asList? Package.ofJson?) packages
        watermark := ← defaulted none (asOptional? Watermark.ofJson?) watermark }
  | _ => none

/-- Writes document options. -/
def toJson (o : DocumentOptions) : Json :=
  record [("export", .bool o.isFinal), ("graphicsPath", optionalTextToJson o.graphicsPath),
    ("colours", .array (o.colours.map ColourOverride.toJson)), ("body", textsToJson o.body),
    ("documentClass", Json.text o.documentClass), ("classOptions", textsToJson o.classOptions),
    ("packages", .array (o.packages.map Package.toJson)),
    ("watermark", (o.watermark.map Watermark.toJson).getD .null)]

end DocumentOptions

/-! ## Engine settings and the whole -/

namespace EngineSettings

/-- The fields of engine settings. -/
def fields : List FieldNames := [["program"], ["args"], ["timeoutSecs"], ["jobName"]]

/-- Reads engine settings; a field that is not given has its default. -/
def ofJson? (j : Json) : Option EngineSettings := do
  match ← slots? fields j with
  | [program, arguments, timeout, jobName] =>
    pure
      { program := ← defaulted "pdflatex" asText? program
        arguments := ← defaulted [] (asList? asText?) arguments
        timeoutSeconds := (← defaulted 60 asNatural? timeout).toUInt64
        jobName := ← defaulted "document" asText? jobName }
  | _ => none

/-- Writes engine settings. -/
def toJson (s : EngineSettings) : Json :=
  record [("program", Json.text s.program), ("args", textsToJson s.arguments),
    ("timeoutSecs", Json.natural s.timeoutSeconds.toNat), ("jobName", Json.text s.jobName)]

end EngineSettings

namespace PressConfig

/-- The fields of a configuration. -/
def fields : List FieldNames := [["document"], ["compiler"]]

/-- Reads a configuration; a part that is not given has its default. -/
def ofJson? (j : Json) : Option PressConfig := do
  match ← slots? fields j with
  | [document, engine] =>
    pure
      { document := ← defaulted {} DocumentOptions.ofJson? document
        engine := ← defaulted {} EngineSettings.ofJson? engine }
  | _ => none

/-- Writes a configuration. -/
def toJson (c : PressConfig) : Json :=
  record [("document", c.document.toJson), ("compiler", c.engine.toJson)]

/-- Reads the text of a configuration. -/
def parse? (text : String) : Option PressConfig := do
  ofJson? (← Json.parse? text)

/-- Reads a configuration file. A file that cannot be read is named in the error. -/
def ofFile (path : String) (content : Except SystemFault (List UInt8)) :
    Except PressError PressConfig :=
  let unreadable (fault : SystemFault) : PressError :=
    .io ("Failed to read config from '" ++ path ++ "': " ++ fault.message)
  match content with
  | .error fault => .error (unreadable fault)
  | .ok bytes =>
    match Text.Utf8.decode? bytes with
    | none => .error (unreadable .notUtf8)
    | some text =>
      match parse? text with
      | some config => .ok config
      | none => .error .json

end PressConfig

end Galley
