/-
`Typesetter/Engine.lean` -- running a TeX engine.

Each run has a directory of its own, where the source, the log and the artifact stand
under one job name. What the engine does there is outside the library: a launch says
whether it started, whether it ended in time, how, and which files and outputs it left.
The rest is decided here: the command line, what counts as failure, and which text the
diagnostics are taken from.
-/
import Galley.Host
import Galley.Text.Utf8
import Galley.Typesetter.Basic
import Galley.Typesetter.Diagnostics

set_option autoImplicit false

namespace Galley

/-! ## Settings and file names -/

/-- How an engine is run. -/
structure EngineSettings where
  program : String := "pdflatex"
  /-- Arguments that stand before the name of the source file. -/
  arguments : List String := []
  timeoutSeconds : UInt64 := 60
  jobName : String := "document"
  deriving DecidableEq, Repr

namespace EngineSettings

/-- The name of the source file. -/
def sourceFile (s : EngineSettings) : String := s.jobName ++ ".tex"

/-- The name of the log file. -/
def logFile (s : EngineSettings) : String := s.jobName ++ ".log"

/-- The name of the artifact. -/
def artifactFile (s : EngineSettings) (format : BinaryFormat) : String :=
  s.jobName ++ "." ++ format.name

/-- The arguments of a run. -/
def commandLine (s : EngineSettings) (format : BinaryFormat) : List String :=
  ["-interaction=batchmode", "-halt-on-error", "-output-format=" ++ format.name,
    "-jobname=" ++ s.jobName] ++ s.arguments ++ [s.sourceFile]

end EngineSettings

/-! ## Runs -/

/-- A program with its arguments, and the source file that stands in its directory. -/
structure Invocation where
  program : String
  arguments : List String
  sourceFile : String
  source : String
  deriving DecidableEq, Repr

/-- The names of the signals, from signal 1 on. -/
def signalNames : List String :=
  ["SIGHUP", "SIGINT", "SIGQUIT", "SIGILL", "SIGTRAP", "SIGABRT", "SIGBUS", "SIGFPE", "SIGKILL",
   "SIGUSR1", "SIGSEGV", "SIGUSR2", "SIGPIPE", "SIGALRM", "SIGTERM", "SIGSTKFLT", "SIGCHLD",
   "SIGCONT", "SIGSTOP", "SIGTSTP", "SIGTTIN", "SIGTTOU", "SIGURG", "SIGXCPU", "SIGXFSZ",
   "SIGVTALRM", "SIGPROF", "SIGWINCH", "SIGIO", "SIGPWR", "SIGSYS"]

/-- A signal that can end a process. -/
structure Signal where
  number : Nat
  pos : 0 < number := by decide
  lt : number < 127 := by decide
  deriving DecidableEq, Repr

/-- The number of a signal, with its name if it has one. -/
def Signal.text (signal : Signal) : String :=
  match signalNames[signal.number - 1]? with
  | some name => s!"{signal.number} ({name})"
  | none => toString signal.number

/-- How a process ended: by itself with a code, or by a signal. -/
inductive ExitStatus where
  | exited (code : UInt8)
  | killed (signal : Signal) (coreDumped : Bool)
  deriving DecidableEq, Repr

/-- The text of a status. -/
def ExitStatus.text : ExitStatus → String
  | .exited code => "exit status: " ++ toString code.toNat
  | .killed signal coreDumped =>
    "signal: " ++ signal.text ++ (if coreDumped then " (core dumped)" else "")

/-- What an engine that ended has left. -/
structure EngineRun where
  status : ExitStatus := .exited 0
  output : List UInt8 := []
  errors : List UInt8 := []
  files : List (String × List UInt8) := []
  deriving DecidableEq, Repr

/-- The contents of a file that was left. -/
def EngineRun.file? (run : EngineRun) (name : String) : Option (List UInt8) :=
  (run.files.find? fun file => file.1 = name).map Prod.snd

/-- What comes of starting a program. -/
inductive Launch where
  | refused (cause : SystemFault)
  /-- The program does not end within its limit. -/
  | unfinished
  | ended (run : EngineRun)
  deriving DecidableEq, Repr

namespace EngineSettings

/-- The log of a run: its log file, or else what it printed. Bytes that are no UTF-8 are
replaced, for an engine may cut a character in two when it breaks a line. -/
def log (s : EngineSettings) (run : EngineRun) : String :=
  match run.file? s.logFile with
  | some bytes => Text.Utf8.decodeLossy bytes
  | none => Text.Utf8.decodeLossy run.output ++ Text.Utf8.decodeLossy run.errors

/-- Judges a run that has ended. It has failed unless it ended by itself with code zero. -/
def judge (s : EngineSettings) (format : BinaryFormat) (run : EngineRun) : Outcome :=
  if run.status ≠ .exited 0 then
    .refused (.failed run.status.text (Diagnostics.ofLog (s.log run)))
  else
    match run.file? (s.artifactFile format) with
    | some bytes => .stream (.ofBytes bytes)
    | none => .refused (.missingArtifact format)

/-- The limit of a run in milliseconds. -/
def limit (s : EngineSettings) : Nat := s.timeoutSeconds.toNat * 1000

/-- Starts a program, unless the machine refuses. -/
def start (host : Host) (launch : Invocation → Launch) (invocation : Invocation) : Launch :=
  match host.startFault? invocation.program invocation.arguments with
  | some cause => .refused cause
  | none => launch invocation

/-- Typesets a job on a machine: writes the source into a fresh directory, starts the
engine there and judges what it leaves. No engine ends within a limit of zero. -/
def typeset (s : EngineSettings) (host : Host) (launch : Invocation → Launch) (job : Job) :
    Outcome :=
  let host := host.enterFresh
  match host.write (host.fullPath s.sourceFile) (Text.Utf8.encode job.source) with
  | .error cause => .refused (.io cause.message)
  | .ok host =>
    match start host launch ⟨s.program, s.commandLine job.format, s.sourceFile, job.source⟩ with
    | .refused cause => .refused (.spawn s.program cause.message)
    | .unfinished => .refused (.timeout s.limit)
    | .ended run =>
      if s.timeoutSeconds = 0 then .refused (.timeout s.limit) else s.judge job.format run

/-- The typesetter that runs an engine. It keeps no state between jobs. -/
def typesetter (s : EngineSettings) (host : Host) (launch : Invocation → Launch) :
    Typesetter Unit :=
  ⟨"latex", fun job _ => (s.typeset host launch job, ())⟩

end EngineSettings

end Galley
