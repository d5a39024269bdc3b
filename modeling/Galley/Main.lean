/-
`Main.lean` -- the command line program.

Reads the arguments and the configuration file, and writes what the command computes.
It starts no other program: a rendering that needs an engine reports that it cannot be
started.
-/
import Galley.CommandLine

set_option autoImplicit false

namespace Galley.Program

/-- The contents of a file, or why it cannot be read. -/
def readFile (path : String) : IO (Except SystemFault (List UInt8)) := do
  try
    let bytes ← IO.FS.readBinFile path
    pure (.ok bytes.toList)
  catch
    | .noFileOrDirectory .. => pure (.error .notFound)
    | e => pure (.error (.other (toString e)))

/-- Reports that the command failed. -/
def fail (text : String) : IO UInt32 := do
  IO.eprintln ("Error: " ++ text)
  pure CommandLine.failureCode

/-- Writes bytes to a file or to the standard output. -/
def write (bytes : List UInt8) : Option String → IO UInt32
  | none => do
    let out ← IO.getStdout
    out.write ⟨bytes.toArray⟩
    out.flush
    pure 0
  | some path => do
    try
      IO.FS.writeBinFile path ⟨bytes.toArray⟩
      pure 0
    catch e => fail (toString e)

/-- Renders what the arguments ask for. -/
def run (r : CommandLine.Request) : IO UInt32 := do
  let content ← match r.config with
    | some path => readFile path
    | none => pure (.error .notFound)
  let launch (_ : Invocation) : Launch := .refused (.other "no engine can be started from here")
  match CommandLine.run r (fun _ => content) fun s => s.typesetter {} launch with
  | .error cause => fail cause.message
  | .ok bytes => write bytes r.output

end Galley.Program

/-- The program: its arguments in, its exit code out. -/
def main (args : List String) : IO UInt32 := do
  match Galley.CommandLine.read {} args with
  | .error stop =>
    IO.print stop.text
    pure stop.exitCode
  | .ok r => Galley.Program.run r
