/-
`Proofs/Configuration.lean` -- configurations survive JSON.

Each type says twice what its JSON is, once in the fields that it reads and once in the
members that it writes, and nothing ties the two together but the names. `parts` is a third
account, from which both follow: the names of each field with the value that a record of this
type has under them. What is written is then one of the ways to write a record, and whatever
is one of these ways is read as the record, without what has been left out.
-/
import Galley.Press.Schema
import Galley.Proofs.JsonLiterals
import Galley.Proofs.JsonRecords

set_option autoImplicit false

namespace Galley

open Decimal Json

/-! ## Texts -/

theorem asList?_textsToJson (texts : List String) :
    asList? asText? (textsToJson texts) = some texts := by
  have hspelled : IsArray (fun s j => j = Json.text s) texts (textsToJson texts) :=
    isArray_map fun _ _ => rfl
  exact asList?_of_isArray hspelled fun s _ _ h => by rw [h, Json.text, asText?]

theorem asOptional?_optionalTextToJson (s : Option String) :
    asOptional? asText? (optionalTextToJson s) = some s := by
  cases s <;> rfl

theorem wellSpelt_textsToJson (texts : List String) : (textsToJson texts).WellSpelt := by
  refine .array fun item hitem => ?_
  obtain ⟨s, -, rfl⟩ := List.mem_map.mp hitem
  exact .string (some s)

theorem wellSpelt_optionalTextToJson (s : Option String) :
    (optionalTextToJson s).WellSpelt := by
  cases s with
  | none => exact .null
  | some s => exact .string (some s)

/-! ## Packages and colours -/

namespace Package

/-- The fields of a package as they may be written. -/
def parts (p : Package) : List Part :=
  [{ name := "name", allowed := (· = Json.text p.name) },
   { name := "options", allowed := (· = textsToJson p.options) }]

/-- A package without options does not write them. -/
def unwritten (p : Package) : List String := if p.options.isEmpty then ["options"] else []

/-- The value is the package, with its members in any order and with others among them. -/
def Spelled (p : Package) (j : Json) : Prop := IsRecord p.parts p.unwritten j

theorem spelled_toJson (p : Package) : p.Spelled p.toJson := by
  refine isRecord_record ?_
  rw [unwritten]
  cases p.options.isEmpty with
  | true => exact .cons ⟨rfl, rfl⟩ .nil
  | false => exact .cons ⟨rfl, rfl⟩ (.cons ⟨rfl, rfl⟩ .nil)

theorem ofJson?_of_spelled {p : Package} {j : Json} (h : p.Spelled j) : ofJson? j = some p := by
  have hdistinct : (p.parts.flatMap Part.names).Nodup := (by decide : ["name", "options"].Nodup)
  obtain ⟨slots, hslots, hfits⟩ := slots?_of_isRecord hdistinct h
  obtain _ | ⟨hname, _ | ⟨hoptions, ⟨⟩⟩⟩ := hfits
  have hslots : slots? fields j = some [_, _] := hslots
  have hkept : "name" ∉ p.unwritten := by
    rw [unwritten]
    split <;> decide
  have hname : required asText? _ = some p.name :=
    required_of_fits hname hkept (by rintro _ rfl; rfl)
  have hoptions : defaulted [] (asList? asText?) _
      = some (if "options" ∈ p.unwritten then [] else p.options) :=
    defaulted_of_fits hoptions (by rintro _ rfl; exact asList?_textsToJson p.options) []
  -- What is not written is what the default is.
  have hunwritten : (if "options" ∈ p.unwritten then [] else p.options) = p.options := by
    rw [unwritten]
    cases p.options <;> rfl
  rw [hunwritten] at hoptions
  rw [ofJson?, hslots]
  simp only [Option.bind_eq_bind, Option.bind_some, Option.pure_def, hname, hoptions]

theorem wellSpelt_toJson (p : Package) : p.toJson.WellSpelt := by
  refine wellSpelt_record ?_
  rw [List.forall_mem_cons]
  refine ⟨.string (some p.name), ?_⟩
  split
  · nofun
  · rw [List.forall_mem_singleton]
    exact wellSpelt_textsToJson p.options

end Package

namespace ColourModel

theorem ofJson?_toJson (m : ColourModel) : ofJson? m.toJson = some m := by
  cases m <;> rfl

end ColourModel

namespace ColourOverride

/-- The fields of a colour as they may be written. -/
def parts (c : ColourOverride) : List Part :=
  [{ name := "name", allowed := (· = Json.text c.name) },
   { name := "value", aliases := ["val"], allowed := (· = Json.text c.value) },
   { name := "model", aliases := ["type"], allowed := (· = c.model.toJson) }]

/-- The value is the colour, with its members in any order, under any of their names and with
others among them. -/
def Spelled (c : ColourOverride) (j : Json) : Prop := IsRecord c.parts [] j

theorem spelled_toJson (c : ColourOverride) : c.Spelled c.toJson :=
  isRecord_record (.cons ⟨rfl, rfl⟩ (.cons ⟨rfl, rfl⟩ (.cons ⟨rfl, rfl⟩ .nil)))

theorem ofJson?_of_spelled {c : ColourOverride} {j : Json} (h : c.Spelled j) :
    ofJson? j = some c := by
  have hdistinct : (c.parts.flatMap Part.names).Nodup :=
    (by decide : ["name", "value", "val", "model", "type"].Nodup)
  obtain ⟨slots, hslots, hfits⟩ := slots?_of_isRecord hdistinct h
  obtain _ | ⟨hname, _ | ⟨hvalue, _ | ⟨hmodel, ⟨⟩⟩⟩⟩ := hfits
  have hslots : slots? fields j = some [_, _, _] := hslots
  have hname : required asText? _ = some c.name :=
    required_of_fits hname List.not_mem_nil (by rintro _ rfl; rfl)
  have hvalue : required asText? _ = some c.value :=
    required_of_fits hvalue List.not_mem_nil (by rintro _ rfl; rfl)
  have hmodel : defaulted .html ColourModel.ofJson? _ = some c.model :=
    defaulted_of_fits hmodel (by rintro _ rfl; exact c.model.ofJson?_toJson) ColourModel.html
  rw [ofJson?, hslots]
  simp only [Option.bind_eq_bind, Option.bind_some, Option.pure_def, hname, hvalue, hmodel]

theorem wellSpelt_toJson (c : ColourOverride) : c.toJson.WellSpelt := by
  refine wellSpelt_record ?_
  simp only [List.forall_mem_cons]
  exact ⟨.string _, .string _, .string _, nofun⟩

end ColourOverride

/-! ## Watermarks -/

namespace Watermark

/-- The fields of a watermark as they may be written. The scale may be any number that is read
as it. -/
def parts (w : Watermark) : List Part :=
  [{ name := "text", allowed := (· = Json.text w.text) },
   { name := "scale", allowed := (asSingle? · = some w.scale) }]

/-- The value is the watermark, with its members in any order and with others among them. -/
def Spelled (w : Watermark) (j : Json) : Prop := IsRecord w.parts [] j

variable {w : Watermark}

/-- What is written for a finite scale that reads back. -/
theorem exists_toJson (hfinite : w.scale.isFinite = true) (hscale : ReadsBack w.scale) :
    ∃ n : Json.Number, w.toJson = record [("text", Json.text w.text), ("scale", .number n)] ∧
      n.WellSpelt ∧ asSingle? (.number n) = some w.scale := by
  obtain ⟨n, hn⟩ := exists_number hfinite
  refine ⟨n, ?_, hscale.wellSpelt hn, hscale.asSingle?_number hn⟩
  rw [toJson, hn, Option.map_some, Option.getD_some]

theorem spelled_toJson (hfinite : w.scale.isFinite = true) (hscale : ReadsBack w.scale) :
    w.Spelled w.toJson := by
  obtain ⟨n, hn, -, hread⟩ := exists_toJson hfinite hscale
  rw [hn]
  exact isRecord_record (.cons ⟨rfl, rfl⟩ (.cons ⟨rfl, hread⟩ .nil))

theorem ofJson?_of_spelled {j : Json} (h : w.Spelled j) : ofJson? j = some w := by
  have hdistinct : (w.parts.flatMap Part.names).Nodup := (by decide : ["text", "scale"].Nodup)
  obtain ⟨slots, hslots, hfits⟩ := slots?_of_isRecord hdistinct h
  obtain _ | ⟨htext, _ | ⟨hscale, ⟨⟩⟩⟩ := hfits
  have hslots : slots? fields j = some [_, _] := hslots
  have htext : required asText? _ = some w.text :=
    required_of_fits htext List.not_mem_nil (by rintro _ rfl; rfl)
  have hscale : defaulted (.ofNat false 1) asSingle? _ = some w.scale :=
    defaulted_of_fits hscale (fun _ hread => hread) (.ofNat false 1)
  rw [ofJson?, hslots]
  simp only [Option.bind_eq_bind, Option.bind_some, Option.pure_def, htext, hscale]

theorem wellSpelt_toJson (hfinite : w.scale.isFinite = true) (hscale : ReadsBack w.scale) :
    w.toJson.WellSpelt := by
  obtain ⟨n, hn, hspelt, -⟩ := exists_toJson hfinite hscale
  rw [hn]
  refine wellSpelt_record ?_
  simp only [List.forall_mem_cons]
  exact ⟨.string _, .number hspelt, nofun⟩

end Watermark

/-! ## Document options -/

namespace DocumentOptions

/-- The fields of document options as they may be written. -/
def parts (o : DocumentOptions) : List Part :=
  [{ name := "export", allowed := (· = .bool o.isFinal) },
   { name := "graphicsPath", allowed := (· = optionalTextToJson o.graphicsPath) },
   { name := "colours", allowed := IsArray ColourOverride.Spelled o.colours },
   { name := "body", allowed := (· = textsToJson o.body) },
   { name := "documentClass", allowed := (· = Json.text o.documentClass) },
   { name := "classOptions", allowed := (· = textsToJson o.classOptions) },
   { name := "packages", allowed := IsArray Package.Spelled o.packages },
   { name := "watermark", allowed := IsOptional Watermark.Spelled o.watermark }]

/-- The value is the document options, without the fields that are left out, with the members
in any order and with others among them. -/
def Spelled (o : DocumentOptions) (left : List String) (j : Json) : Prop :=
  IsRecord o.parts left j

/-- The options with the defaults of the fields that are left out. -/
def without (o : DocumentOptions) (left : List String) : DocumentOptions :=
  let default : DocumentOptions := {}
  { isFinal := if "export" ∈ left then default.isFinal else o.isFinal
    graphicsPath := if "graphicsPath" ∈ left then default.graphicsPath else o.graphicsPath
    colours := if "colours" ∈ left then default.colours else o.colours
    body := if "body" ∈ left then default.body else o.body
    documentClass := if "documentClass" ∈ left then default.documentClass else o.documentClass
    classOptions := if "classOptions" ∈ left then default.classOptions else o.classOptions
    packages := if "packages" ∈ left then default.packages else o.packages
    watermark := if "watermark" ∈ left then default.watermark else o.watermark }

variable {o : DocumentOptions}

theorem spelled_toJson (hfinite : ∀ w ∈ o.watermark, w.scale.isFinite = true)
    (hscale : ∀ w ∈ o.watermark, ReadsBack w.scale) : o.Spelled [] o.toJson := by
  have hcolours : IsArray ColourOverride.Spelled o.colours
      (.array (o.colours.map ColourOverride.toJson)) :=
    isArray_map fun c _ => c.spelled_toJson
  have hpackages : IsArray Package.Spelled o.packages
      (.array (o.packages.map Package.toJson)) :=
    isArray_map fun p _ => p.spelled_toJson
  have hwatermark : IsOptional Watermark.Spelled o.watermark
      ((o.watermark.map Watermark.toJson).getD .null) := by
    cases hmark : o.watermark with
    | none => rfl
    | some w => exact Watermark.spelled_toJson (hfinite w hmark) (hscale w hmark)
  exact isRecord_record (.cons ⟨rfl, rfl⟩ (.cons ⟨rfl, rfl⟩ (.cons ⟨rfl, hcolours⟩
    (.cons ⟨rfl, rfl⟩ (.cons ⟨rfl, rfl⟩ (.cons ⟨rfl, rfl⟩ (.cons ⟨rfl, hpackages⟩
      (.cons ⟨rfl, hwatermark⟩ .nil))))))))

/-- **Options.** Every way to write document options is read as the options without what is
left out. -/
theorem ofJson?_of_spelled {left : List String} {j : Json} (h : o.Spelled left j) :
    ofJson? j = some (o.without left) := by
  have hdistinct : (o.parts.flatMap Part.names).Nodup :=
    (by decide : ["export", "graphicsPath", "colours", "body", "documentClass", "classOptions",
      "packages", "watermark"].Nodup)
  -- One slot for each field, in the order in which the reader takes them; each field of the
  -- options without what is left out is read from its own slot and no other.
  obtain ⟨slots, hslots, hfits⟩ := slots?_of_isRecord hdistinct h
  obtain _ | ⟨hfinal, _ | ⟨hgraphics, _ | ⟨hcolours, _ | ⟨hbody, _ | ⟨hclass, _ | ⟨hoptions,
    _ | ⟨hpackages, _ | ⟨hwatermark, ⟨⟩⟩⟩⟩⟩⟩⟩⟩⟩ := hfits
  have hslots : slots? fields j = some [_, _, _, _, _, _, _, _] := hslots
  have hfinal : defaulted false asBool? _ = some (o.without left).isFinal :=
    defaulted_of_fits hfinal (by rintro _ rfl; rfl) false
  have hgraphics : defaulted none (asOptional? asText?) _ = some (o.without left).graphicsPath :=
    defaulted_of_fits hgraphics
      (by rintro _ rfl; exact asOptional?_optionalTextToJson o.graphicsPath) none
  have hcolours : defaulted [] (asList? ColourOverride.ofJson?) _
      = some (o.without left).colours :=
    defaulted_of_fits hcolours (fun _ hj => asList?_of_isArray hj fun _ _ _ hc =>
      ColourOverride.ofJson?_of_spelled hc) []
  have hbody : defaulted [] (asList? asText?) _ = some (o.without left).body :=
    defaulted_of_fits hbody (by rintro _ rfl; exact asList?_textsToJson o.body) []
  have hclass : defaulted "article" asText? _ = some (o.without left).documentClass :=
    defaulted_of_fits hclass (by rintro _ rfl; rfl) "article"
  have hoptions : defaulted [] (asList? asText?) _ = some (o.without left).classOptions :=
    defaulted_of_fits hoptions (by rintro _ rfl; exact asList?_textsToJson o.classOptions) []
  have hpackages : defaulted defaultPackages (asList? Package.ofJson?) _
      = some (o.without left).packages :=
    defaulted_of_fits hpackages (fun _ hj => asList?_of_isArray hj fun _ _ _ hp =>
      Package.ofJson?_of_spelled hp) defaultPackages
  have hwatermark : defaulted none (asOptional? Watermark.ofJson?) _
      = some (o.without left).watermark :=
    defaulted_of_fits hwatermark (fun _ hj => asOptional?_of_isOptional hj
      (fun _ _ => not_isRecord_null) fun _ _ _ hw => Watermark.ofJson?_of_spelled hw) none
  rw [ofJson?, hslots]
  simp only [Option.bind_eq_bind, Option.bind_some, Option.pure_def, hfinal, hgraphics, hcolours,
    hbody, hclass, hoptions, hpackages, hwatermark]

theorem wellSpelt_toJson (hfinite : ∀ w ∈ o.watermark, w.scale.isFinite = true)
    (hscale : ∀ w ∈ o.watermark, ReadsBack w.scale) : o.toJson.WellSpelt := by
  have hcolours : ∀ item ∈ o.colours.map ColourOverride.toJson, item.WellSpelt :=
    List.forall_mem_map.mpr fun c _ => c.wellSpelt_toJson
  have hpackages : ∀ item ∈ o.packages.map Package.toJson, item.WellSpelt :=
    List.forall_mem_map.mpr fun p _ => p.wellSpelt_toJson
  have hwatermark : ((o.watermark.map Watermark.toJson).getD .null).WellSpelt := by
    cases hmark : o.watermark with
    | none => exact .null
    | some w => exact Watermark.wellSpelt_toJson (hfinite w hmark) (hscale w hmark)
  refine wellSpelt_record ?_
  simp only [List.forall_mem_cons]
  exact ⟨.bool _, wellSpelt_optionalTextToJson _, .array hcolours, wellSpelt_textsToJson _,
    .string _, wellSpelt_textsToJson _, .array hpackages, hwatermark, nofun⟩

end DocumentOptions

/-! ## Engine settings -/

namespace EngineSettings

/-- The fields of engine settings as they may be written. -/
def parts (s : EngineSettings) : List Part :=
  [{ name := "program", allowed := (· = Json.text s.program) },
   { name := "args", allowed := (· = textsToJson s.arguments) },
   { name := "timeoutSecs", allowed := (· = Json.natural s.timeoutSeconds.toNat) },
   { name := "jobName", allowed := (· = Json.text s.jobName) }]

/-- The value is the engine settings, without the fields that are left out, with the members in
any order and with others among them. -/
def Spelled (s : EngineSettings) (left : List String) (j : Json) : Prop :=
  IsRecord s.parts left j

/-- The settings with the defaults of the fields that are left out. -/
def without (s : EngineSettings) (left : List String) : EngineSettings :=
  let default : EngineSettings := {}
  { program := if "program" ∈ left then default.program else s.program
    arguments := if "args" ∈ left then default.arguments else s.arguments
    timeoutSeconds := if "timeoutSecs" ∈ left then default.timeoutSeconds else s.timeoutSeconds
    jobName := if "jobName" ∈ left then default.jobName else s.jobName }

variable {s : EngineSettings}

theorem spelled_toJson (s : EngineSettings) : s.Spelled [] s.toJson :=
  isRecord_record (.cons ⟨rfl, rfl⟩ (.cons ⟨rfl, rfl⟩ (.cons ⟨rfl, rfl⟩ (.cons ⟨rfl, rfl⟩ .nil))))

/-- **Settings.** Every way to write engine settings is read as the settings without what is
left out. -/
theorem ofJson?_of_spelled {left : List String} {j : Json} (h : s.Spelled left j) :
    ofJson? j = some (s.without left) := by
  have hdistinct : (s.parts.flatMap Part.names).Nodup :=
    (by decide : ["program", "args", "timeoutSecs", "jobName"].Nodup)
  obtain ⟨slots, hslots, hfits⟩ := slots?_of_isRecord hdistinct h
  obtain _ | ⟨hprogram, _ | ⟨harguments, _ | ⟨htimeout, _ | ⟨hjob, ⟨⟩⟩⟩⟩⟩ := hfits
  have hslots : slots? fields j = some [_, _, _, _] := hslots
  have hprogram : defaulted "pdflatex" asText? _ = some (s.without left).program :=
    defaulted_of_fits hprogram (by rintro _ rfl; rfl) "pdflatex"
  have harguments : defaulted [] (asList? asText?) _ = some (s.without left).arguments :=
    defaulted_of_fits harguments (by rintro _ rfl; exact asList?_textsToJson s.arguments) []
  -- The limit is read as a natural number, which any 64 bits are, and is a word again then.
  have htimeout : defaulted 60 asNatural? _
      = some (if "timeoutSecs" ∈ left then 60 else s.timeoutSeconds.toNat) :=
    defaulted_of_fits htimeout
      (by rintro _ rfl; exact asNatural?_natural s.timeoutSeconds.toNat_lt) 60
  have hword : (if "timeoutSecs" ∈ left then 60 else s.timeoutSeconds.toNat).toUInt64
      = (s.without left).timeoutSeconds := by
    rw [without]
    split
    · rfl
    · exact UInt64.ofNat_toNat
  have hjob : defaulted "document" asText? _ = some (s.without left).jobName :=
    defaulted_of_fits hjob (by rintro _ rfl; rfl) "document"
  rw [ofJson?, hslots]
  simp only [Option.bind_eq_bind, Option.bind_some, Option.pure_def, hprogram, harguments,
    htimeout, hword, hjob]

theorem wellSpelt_toJson (s : EngineSettings) : s.toJson.WellSpelt := by
  refine wellSpelt_record ?_
  simp only [List.forall_mem_cons]
  exact ⟨.string _, wellSpelt_textsToJson _, wellSpelt_natural _, .string _, nofun⟩

end EngineSettings

/-! ## Configurations -/

/-- What is left out of a configuration: fields of its own, of the document options and of the
engine settings. -/
structure Omission where
  whole : List String := []
  document : List String := []
  engine : List String := []

namespace PressConfig

/-- The fields of a configuration as they may be written. -/
def parts (c : PressConfig) (left : Omission) : List Part :=
  [{ name := "document", allowed := c.document.Spelled left.document },
   { name := "compiler", allowed := c.engine.Spelled left.engine }]

/-- The value is the configuration, without the fields that are left out, with the members of
every object in any order and with others among them. -/
def Spelled (c : PressConfig) (left : Omission) (j : Json) : Prop :=
  IsRecord (c.parts left) left.whole j

/-- The configuration with the defaults of the fields that are left out. -/
def without (c : PressConfig) (left : Omission) : PressConfig :=
  let default : PressConfig := {}
  { document := if "document" ∈ left.whole then default.document
      else c.document.without left.document
    engine := if "compiler" ∈ left.whole then default.engine else c.engine.without left.engine }

variable {c : PressConfig}

theorem without_nothing (c : PressConfig) : c.without {} = c := rfl

theorem spelled_toJson (hfinite : ∀ w ∈ c.document.watermark, w.scale.isFinite = true)
    (hscale : ∀ w ∈ c.document.watermark, ReadsBack w.scale) : c.Spelled {} c.toJson :=
  isRecord_record (.cons ⟨rfl, DocumentOptions.spelled_toJson hfinite hscale⟩
    (.cons ⟨rfl, c.engine.spelled_toJson⟩ .nil))

theorem ofJson?_of_spelled {left : Omission} {j : Json} (h : c.Spelled left j) :
    ofJson? j = some (c.without left) := by
  have hdistinct : ((c.parts left).flatMap Part.names).Nodup :=
    (by decide : ["document", "compiler"].Nodup)
  obtain ⟨slots, hslots, hfits⟩ := slots?_of_isRecord hdistinct h
  obtain _ | ⟨hdocument, _ | ⟨hengine, ⟨⟩⟩⟩ := hfits
  have hslots : slots? fields j = some [_, _] := hslots
  have hdocument : defaulted {} DocumentOptions.ofJson? _ = some (c.without left).document :=
    defaulted_of_fits hdocument (fun _ hj => DocumentOptions.ofJson?_of_spelled hj) {}
  have hengine : defaulted {} EngineSettings.ofJson? _ = some (c.without left).engine :=
    defaulted_of_fits hengine (fun _ hj => EngineSettings.ofJson?_of_spelled hj) {}
  rw [ofJson?, hslots]
  simp only [Option.bind_eq_bind, Option.bind_some, Option.pure_def, hdocument, hengine]

theorem wellSpelt_toJson (hfinite : ∀ w ∈ c.document.watermark, w.scale.isFinite = true)
    (hscale : ∀ w ∈ c.document.watermark, ReadsBack w.scale) : c.toJson.WellSpelt := by
  refine wellSpelt_record ?_
  simp only [List.forall_mem_cons]
  exact ⟨DocumentOptions.wellSpelt_toJson hfinite hscale, c.engine.wellSpelt_toJson, nofun⟩

/-- **Configurations survive JSON.** What is written for a configuration is read as it, and
so is every other way to write it, without what has been left out: with the members of any
object in another order and with further members among them, a colour's value and model under
their other names, and the scale as any number that is read as it, such as `1`, `1e0` or `1.00`
where `1.0` is written. This holds of every text of such a value, and there is one as soon as its
numbers are spelt by the grammar. -/
theorem survives_json (c : PressConfig)
    (hfinite : ∀ w ∈ c.document.watermark, w.scale.isFinite = true)
    (hscale : ∀ w ∈ c.document.watermark, ReadsBack w.scale) :
    parse? (compact c.toJson) = some c ∧ c.Spelled {} c.toJson ∧
      ∀ (left : Omission) (j : Json), c.Spelled left j →
        (∀ text, Json.parse? text = some j → parse? text = some (c.without left)) ∧
        (j.WellSpelt → parse? (compact j) = some (c.without left)) := by
  have hvaried : ∀ (left : Omission) (j : Json), c.Spelled left j → ∀ text,
      Json.parse? text = some j → parse? text = some (c.without left) := by
    intro left j hj text htext
    rw [parse?, htext]
    exact ofJson?_of_spelled hj
  -- What is written is one of the ways, with nothing left out, so the rest is the first part.
  have hspelled := spelled_toJson hfinite hscale
  have hwritten := parse?_compact (wellSpelt_toJson hfinite hscale)
  refine ⟨?_, hspelled, ?_⟩
  · rw [hvaried {} c.toJson hspelled _ hwritten, without_nothing]
  · intro left j hj
    refine ⟨hvaried left j hj, ?_⟩
    intro hspelt
    exact hvaried left j hj _ (parse?_compact hspelt)

/-- The configuration of a draft, with a scale that has no exact decimal text. -/
def draft : PressConfig :=
  { document :=
      { colours := [⟨"mist", "0.5", .gray⟩]
        watermark := some ⟨"DRAFT", .finite false 10066330 (-25)⟩ }
    engine := { program := "lualatex", timeoutSeconds := 18446744073709551615 } }

/-- The mist of the draft, under a colour's other names. -/
def mist : Json :=
  record [("type", Json.text "gray"), ("name", Json.text "mist"), ("val", Json.text "0.5")]

/-- The draft as it may be written by hand: in another order, with a member that nobody reads
and little else. -/
def excerpt : Json :=
  record [("theme", Json.text "dark"),
    ("compiler", record [("program", Json.text "lualatex")]),
    ("document", record [("colours", .array [mist])])]

/-- The draft is read back, and what is written by hand is read as that and the defaults. -/
theorem draft_survives_json :
    parse? (compact draft.toJson) = some draft ∧
    parse? (compact excerpt)
      = some
        { document := { colours := [⟨"mist", "0.5", .gray⟩] }
          engine := { program := "lualatex" } } := by
  obtain ⟨hwritten, -, hvaried⟩ := survives_json draft (by decide) (by decide)
  have hmist : ColourOverride.Spelled ⟨"mist", "0.5", .gray⟩ mist := by
    refine ⟨_, [(some "name", Json.text "mist"), (some "val", Json.text "0.5"),
      (some "type", Json.text "gray")], [], rfl, ?_, ?_, nofun⟩
    · exact (List.perm_append_comm : ([_] ++ [_, _]).Perm _)
    · exact .cons ⟨⟨"name", by decide, rfl⟩, rfl⟩
        (.cons ⟨⟨"val", by decide, rfl⟩, rfl⟩ (.cons ⟨⟨"type", by decide, rfl⟩, rfl⟩ .nil))
  have hspelled : draft.Spelled
      { document := ["export", "graphicsPath", "body", "documentClass", "classOptions",
          "packages", "watermark"]
        engine := ["args", "timeoutSecs", "jobName"] } excerpt := by
    refine ⟨_, [(some "document", _), (some "compiler", _)], [(some "theme", _)], rfl,
      List.reverse_perm [_, _, _], ?_, ?_⟩
    · refine .cons ⟨⟨"document", by decide, rfl⟩, ?_⟩
        (.cons ⟨⟨"compiler", by decide, rfl⟩, isRecord_record (.cons ⟨rfl, rfl⟩ .nil)⟩ .nil)
      exact isRecord_record (.cons ⟨rfl, _, rfl, .cons hmist .nil⟩ .nil)
    · rw [List.forall_mem_singleton]
      refine ⟨"theme", rfl, ?_⟩
      simp [parts, Part.names]
  have hspelt : excerpt.WellSpelt := by
    have hcolours : Json.WellSpelt (.array [mist]) := by
      refine .array (List.forall_mem_singleton.mpr (wellSpelt_record ?_))
      simp only [List.forall_mem_cons]
      exact ⟨.string _, .string _, .string _, nofun⟩
    refine wellSpelt_record ?_
    simp only [List.forall_mem_cons]
    exact ⟨.string _, wellSpelt_record (List.forall_mem_singleton.mpr (.string _)),
      wellSpelt_record (List.forall_mem_singleton.mpr hcolours), nofun⟩
  exact ⟨hwritten, (hvaried _ excerpt hspelled).2 hspelt⟩

end PressConfig

end Galley
