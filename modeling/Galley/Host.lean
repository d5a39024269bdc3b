/-
`Host.lean` -- the machine that files are read from and engines run on.

A path is a way through a tree of directories that is taken one name at a time. Every
name is judged where the way has led so far, so of several faults the one that comes
first on the way is reported; only the length of the whole path is judged before the
way is taken. A program without a slash in its name is looked for in the directories of
the search path, and one that is found and may not be run counts more than one that is
not found.
-/
import Galley.SystemFault

set_option autoImplicit false

namespace Galley

/-! ## The tree -/

/-- A place in the tree: the names on the way from the root. -/
abbrev Place := List String

/-- What stands at a place. -/
inductive HostEntry where
  | directory
  | file (contents : List UInt8) (executable : Bool)
  deriving DecidableEq, Repr

/-- A machine: what stands where, latest first, and the directories that it uses. -/
structure Host where
  entries : List (Place × HostEntry) := [(["tmp"], .directory)]
  /-- Where a path that does not start at the root starts. -/
  workingDirectory : Place := []
  /-- Where fresh directories are made. -/
  temporary : Place := ["tmp"]
  /-- Where programs are looked for, in this order. -/
  searchPath : List Place := []
  deriving DecidableEq, Repr

namespace Host

/-- What stands at a place. The root is always a directory. -/
def entry? (h : Host) (place : Place) : Option HostEntry :=
  if place = [] then some .directory
  else (h.entries.find? fun e => e.1 = place).map Prod.snd

/-- The machine with something else at a place. -/
def put (h : Host) (place : Place) (entry : HostEntry) : Host :=
  { h with entries := (place, entry) :: h.entries }

/-- The name of a fresh directory. -/
def freshName : String := ".tmp000000"

/-- The machine with a fresh directory to work in. -/
def enterFresh (h : Host) : Host :=
  let place := h.temporary ++ [freshName]
  { h.put place .directory with workingDirectory := place }

/-! ## Paths -/

/-- The longest name of a file, in bytes. -/
def maxNameLength : Nat := 255

/-- The longest path, in bytes. -/
def maxPathLength : Nat := 4095

/-- Whether a path starts at the root. -/
def isAbsolute (path : String) : Bool := path.toList.head? == some '/'

/-- The names of a path between its slashes. -/
def components (path : String) : List String :=
  (path.toList.splitOn '/').map String.ofList

/-- The path of a place. -/
def pathOf (place : Place) : String :=
  String.join (place.map fun name => "/" ++ name)

/-- The path of a file that is named from the working directory. -/
def fullPath (h : Host) (path : String) : String :=
  if isAbsolute path then path else pathOf h.workingDirectory ++ "/" ++ path

/-- Takes one name of a path. What has been reached must be a directory, also for the
names that lead nowhere else. -/
def step (h : Host) (place : Place) (name : String) : Except SystemFault Place :=
  match h.entry? place with
  | none => .error .notFound
  | some (.file ..) => .error .notADirectory
  | some .directory =>
    if name = "" ∨ name = "." then .ok place
    else if name = ".." then .ok place.dropLast
    else if maxNameLength < name.utf8ByteSize then .error .nameTooLong
    else .ok (place ++ [name])

/-- The place that a path leads to. There may be nothing at its last name. -/
def locate (h : Host) (path : String) : Except SystemFault Place :=
  if path.toList.contains '\x00' then .error .nulInFileName
  else if maxPathLength < path.utf8ByteSize then .error .nameTooLong
  else if path.isEmpty then .error .notFound
  else (components path).foldlM h.step (if isAbsolute path then [] else h.workingDirectory)

/-! ## Files -/

/-- The contents of a file. -/
def read (h : Host) (path : String) : Except SystemFault (List UInt8) := do
  let place ← h.locate path
  match h.entry? place with
  | none => .error .notFound
  | some .directory => .error .isADirectory
  | some (.file contents _) => .ok contents

/-- The machine after a file is written, over what it held before. -/
def write (h : Host) (path : String) (contents : List UInt8) : Except SystemFault Host := do
  let place ← h.locate path
  match h.entry? place with
  | none => .ok (h.put place (.file contents false))
  | some .directory => .error .isADirectory
  | some (.file _ executable) => .ok (h.put place (.file contents executable))

/-! ## Programs -/

/-- The place of a program that is named by a path. -/
def executable (h : Host) (path : String) : Except SystemFault Place := do
  let place ← h.locate path
  match h.entry? place with
  | none => .error .notFound
  | some (.file _ true) => .ok place
  | some _ => .error .permissionDenied

/-- The first program of a name in some directories. -/
def search (h : Host) (name : String) : List Place → Except SystemFault Place
  | [] => .error .notFound
  | directory :: rest =>
    match h.executable (pathOf (directory ++ [name])), h.search name rest with
    | .ok place, _ => .ok place
    | .error .permissionDenied, .error .notFound => .error .permissionDenied
    | .error _, later => later

/-- The place of a program, by its name or by a path. -/
def program (h : Host) (name : String) : Except SystemFault Place :=
  if name.isEmpty then .error .notFound
  else if name.toList.contains '/' then h.executable name
  else if maxNameLength < name.utf8ByteSize then .error .nameTooLong
  else h.search name h.searchPath

/-- The longest word of a command line, in bytes. -/
def maxWordLength : Nat := 131071

/-- The most bytes of a command line, with one after each word. -/
def maxCommandLength : Nat := 2097152

/-- Why a program cannot be started with some arguments. -/
def startFault? (h : Host) (name : String) (arguments : List String) : Option SystemFault :=
  let words := name :: arguments
  if words.any fun word => word.toList.contains '\x00' then some .nulInArgument
  else
    match h.program name with
    | .error cause => some cause
    | .ok _ =>
      if (words.any fun word => maxWordLength < word.utf8ByteSize)
          || maxCommandLength < words.foldr (fun word n => word.utf8ByteSize + 1 + n) 0 then
        some .argumentsTooLong
      else none

end Host

end Galley
