/-
`Press/Config.lean` -- the whole configuration of a press.

A configuration holds the options that documents start with and the settings of the
engine. It can be put together step by step or be read from a file, and it is checked
when a press is built from it: the engine settings first, in a fixed order, and then
what a document would refuse.
-/
import Galley.Document.Basic
import Galley.Press.Error
import Galley.Typesetter.Engine

set_option autoImplicit false

namespace Galley

/-- Document options and engine settings. -/
structure PressConfig where
  document : DocumentOptions := {}
  engine : EngineSettings := {}
  deriving DecidableEq, Repr

namespace PressConfig

/-! ## Steps -/

/-- The configuration with other document options. -/
def withDocument (c : PressConfig) (options : DocumentOptions) : PressConfig :=
  { c with document := options }

/-- The configuration for final documents, or for drafts. -/
def withFinal (c : PressConfig) (isFinal : Bool) : PressConfig :=
  { c with document := { c.document with isFinal } }

/-- The configuration with a directory of pictures. -/
def withGraphicsPath (c : PressConfig) (path : String) : PressConfig :=
  { c with document := { c.document with graphicsPath := some path } }

/-- The configuration with one more colour. -/
def addColour (c : PressConfig) (colour : ColourOverride) : PressConfig :=
  { c with document := c.document.addColour colour }

/-- The configuration with a watermark. -/
def withWatermark (c : PressConfig) (mark : Watermark) : PressConfig :=
  { c with document := { c.document with watermark := some mark } }

/-- The configuration with another program. -/
def withProgram (c : PressConfig) (program : String) : PressConfig :=
  { c with engine := { c.engine with program } }

/-- The configuration with one more argument for the engine. -/
def addArgument (c : PressConfig) (argument : String) : PressConfig :=
  { c with engine := { c.engine with arguments := c.engine.arguments ++ [argument] } }

/-- The configuration with a time limit, in whole seconds and at least one. -/
def withTimeout (c : PressConfig) (millis : UInt64) : PressConfig :=
  { c with engine := { c.engine with timeoutSeconds := max (millis / 1000) 1 } }

/-- The configuration with another job name. -/
def withJobName (c : PressConfig) (jobName : String) : PressConfig :=
  { c with engine := { c.engine with jobName } }

/-! ## Checks -/

/-- Whether a text can name a job: letters, digits, hyphens and underscores. -/
def isJobName (name : String) : Bool :=
  !name.isEmpty && name.toList.all fun c => c.isAlphanum || c = '-' || c = '_'

/-- Checks the engine settings: the program, the time limit, the job name. -/
def checkEngine (s : EngineSettings) : Except ConfigFault Unit :=
  if (Text.trim s.program).isEmpty then .error .noProgram
  else if s.timeoutSeconds = 0 then .error .noTime
  else if isJobName s.jobName then .ok ()
  else .error (.jobName s.jobName)

/-- Checks what documents would refuse, and answers the first of them. -/
def checkDocument (c : PressConfig) : Except PressError Document :=
  (Document.new c.document).mapError PressError.document

/-- Checks everything that a press with an engine needs. -/
def check (c : PressConfig) : Except PressError Unit := do
  (checkEngine c.engine).mapError PressError.config
  discard c.checkDocument

end PressConfig

end Galley
