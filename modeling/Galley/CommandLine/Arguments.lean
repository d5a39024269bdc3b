/-
`CommandLine/Arguments.lean` -- the arguments of the command.

They are read from left to right, and the first fault or the first wish for help stops
the reading: what stands behind it is not looked at.
-/
set_option autoImplicit false

namespace Galley.CommandLine

/-! ## Requests -/

/-- What the sample is rendered to. -/
inductive Target where
  | tex
  | pdf
  | dvi
  /-- PDF as base64 text. -/
  | base64
  deriving DecidableEq, Repr

/-- The target of a name; case matters. -/
def Target.ofName? (name : String) : Option Target :=
  match name with
  | "tex" => some .tex
  | "pdf" => some .pdf
  | "dvi" => some .dvi
  | "base64" => some .base64
  | _ => none

/-- What the arguments ask for. -/
structure Request where
  target : Option Target := none
  /-- The file to write to, instead of the standard output. -/
  output : Option String := none
  /-- The configuration file. -/
  config : Option String := none
  /-- The document is final. -/
  isFinal : Bool := false
  deriving DecidableEq, Repr

/-- Why nothing is rendered. -/
inductive Stop where
  /-- Help is asked for, in full or in brief. -/
  | help (full : Bool)
  | version
  /-- The arguments are not understood. -/
  | usage
  deriving DecidableEq, Repr

/-! ## Options -/

/-- The options that take a value. -/
inductive ValueOption where
  | format
  | output
  | config
  deriving DecidableEq, Repr

/-- What a name stands for. -/
inductive Meaning where
  | value (option : ValueOption)
  | final
  | stop (reason : Stop)
  deriving DecidableEq, Repr

/-- The meaning of a long name. -/
def longName? (name : String) : Option Meaning :=
  match name with
  | "format" => some (.value .format)
  | "output" => some (.value .output)
  | "config" => some (.value .config)
  | "export" => some .final
  | "help" => some (.stop (.help true))
  | "version" => some (.stop .version)
  | _ => none

/-- The meaning of a one-letter name. -/
def shortName? (c : Char) : Option Meaning :=
  match c with
  | 'f' => some (.value .format)
  | 'o' => some (.value .output)
  | 'c' => some (.value .config)
  | 'h' => some (.stop (.help false))
  | 'V' => some (.stop .version)
  | _ => none

/-- Sets an option. It takes one value, once, and the value is not empty. -/
def Request.set (r : Request) (option : ValueOption) (value : String) : Except Stop Request :=
  if value.isEmpty then .error .usage
  else
    match option with
    | .format =>
      match r.target, Target.ofName? value with
      | none, some target => .ok { r with target := some target }
      | _, _ => .error .usage
    | .output => if r.output.isSome then .error .usage else .ok { r with output := some value }
    | .config => if r.config.isSome then .error .usage else .ok { r with config := some value }

/-- Marks the document as final, once. -/
def Request.setFinal (r : Request) : Except Stop Request :=
  if r.isFinal then .error .usage else .ok { r with isFinal := true }

/-- Whether an argument can be the value of the option before it: it does not look like
an option itself. -/
def isValue (argument : String) : Bool :=
  argument.toList.head? != some '-' || argument == "-"

/-! ## Reading -/

/-- An argument by its form. -/
inductive Form where
  /-- An option, with the value that is attached to it. -/
  | named (meaning : Meaning) (attached : Option String)
  /-- The mark that ends the options. -/
  | endOfOptions
  | unknown

/-- The text that is attached to a one-letter name, without an equals sign before it. -/
def attachedText : List Char → Option String
  | [] => none
  | '=' :: rest => some (String.ofList rest)
  | rest => some (String.ofList rest)

/-- The form of a long name and of the text after its equals sign, if it has one. -/
def Form.ofLong (cs : List Char) : Form :=
  let value := match cs.dropWhile (· ≠ '=') with
    | '=' :: rest => some (String.ofList rest)
    | _ => none
  match longName? (String.ofList (cs.takeWhile (· ≠ '='))) with
  | some meaning => .named meaning value
  | none => .unknown

/-- The form of a one-letter name and of what follows it. -/
def Form.ofShort (c : Char) (rest : List Char) : Form :=
  match shortName? c with
  | some (.stop reason) => .named (.stop reason) none
  | some meaning => .named meaning (attachedText rest)
  | none => .unknown

/-- The form of an argument. -/
def Form.of (argument : String) : Form :=
  match argument.toList with
  | ['-', '-'] => .endOfOptions
  | '-' :: '-' :: rest => .ofLong rest
  | '-' :: c :: rest => .ofShort c rest
  | _ => .unknown

/-- Reads arguments into a request. -/
def read (r : Request) : List String → Except Stop Request
  | [] => .ok r
  | argument :: rest =>
    match Form.of argument with
    | .unknown => .error .usage
    | .endOfOptions => if rest.isEmpty then .ok r else .error .usage
    | .named (.value option) (some value) => do read (← r.set option value) rest
    | .named (.value option) none =>
      match rest with
      | [] => .error .usage
      | next :: rest =>
        if isValue next then do read (← r.set option next) rest else .error .usage
    | .named .final none => do read (← r.setFinal) rest
    | .named (.stop reason) none => .error reason
    | .named _ (some _) => .error .usage

end Galley.CommandLine
