import NodeHealth.Machine.Basic
import NodeHealth.Machine.Path

/-!
# A scratch machine

A machine that is no more than a working directory with some plain files in it and one program.
Runs are tried out on it.
-/

namespace NodeHealth

/-- How the program of a scratch machine behaves. -/
structure Program where
  name : String
  stdout : Bytes := []
  stderr : Bytes := []
  status : ExitStatus := .code 0
  /-- Whether it prints nothing and never ends. -/
  hangs : Bool := false
  /-- Whether it first prints its arguments, one per line. -/
  echoes : Bool := false
  deriving DecidableEq, Repr

/-- A working directory and a program. -/
structure Scratch where
  files : List (String × Bytes) := []
  program : Program
  deriving DecidableEq, Repr

namespace Scratch

/-- What a path leads to. -/
inductive Target where
  | file (bytes : Bytes)
  | directory
  deriving DecidableEq, Repr

/-- The names that lead from the root to the working directory. -/
def workingDirectory : List String := ["tmp", "scratch"]

/-- The directories that every machine has under its root. -/
def standardDirectories : List String := ["bin", "dev", "etc", "lib", "tmp", "usr", "var"]

/-- What is at the end of a way of names from the root. -/
def find? (s : Scratch) (way : List String) : Option Target :=
  if way.isPrefixOf workingDirectory then some .directory
  else if way = ["dev", "null"] then some (.file [])
  else if way.dropLast = workingDirectory then
    (way.getLast?.bind fun name => s.files.lookup name).map .file
  else if way.dropLast = [] && way.all standardDirectories.contains then some .directory
  else none

/-- Follows the pieces of a path from the directory at the end of a way. From a file nothing leads
on, not even a piece that would stay where it is; above the root there is the root. -/
def walk (s : Scratch) : (way : List String) → List (List Char) → Except OsError Target
  | _, [] => .ok .directory
  | way, piece :: rest =>
    match Path.Component.ofPiece? piece with
    | some (.named name) =>
      match s.find? (way ++ [name]) with
      | some .directory => s.walk (way ++ [name]) rest
      | some (.file bytes) => if rest.isEmpty then .ok (.file bytes) else .error .notADirectory
      | none => .error .notFound
    | some .parent => s.walk way.dropLast rest
    | _ => s.walk way rest

/-- Follows a path. The empty path leads nowhere. -/
def resolve (s : Scratch) (path : String) : Except OsError Target :=
  if path.isEmpty then .error .notFound
  else s.walk (if Path.isAbsolute path then [] else workingDirectory) (Path.pieces path)

def hasNul (s : String) : Bool := s.toList.contains '\x00'

def read (s : Scratch) (path : String) : Except ReadError Bytes :=
  if hasNul path then .error .nulInPath
  else match s.resolve path with
    | .ok (.file bytes) => .ok bytes
    | .ok .directory => .error (.os .isADirectory)
    | .error e => .error (.os e)

/-- Arguments, one per line. -/
def echo (args : List String) : Bytes := args.flatMap fun arg => Utf8.encode arg ++ [0x0A]

/-- Runs a program. No file can be executed, and a name without a slash means the program of the
machine, a directory (`.` and `..` are found wherever programs are searched for), or nothing. A
program takes some time, so that it never ends within no time. -/
def execute (s : Scratch) (program : String) (args : List String) (limit : Duration) : Execution :=
  if hasNul program || args.any hasNul then .notStarted .nulInArguments
  else if program.toList.contains '/' then
    match s.resolve program with
    | .ok _ => .notStarted (.os .permissionDenied)
    | .error e => .notStarted (.os e)
  else if program = s.program.name then
    if s.program.hangs || limit.millis == 0 then .timedOut
    else .finished s.program.status
      ((if s.program.echoes then echo args else []) ++ s.program.stdout) s.program.stderr
  else if program = "." || program = ".." then .notStarted (.os .permissionDenied)
  else .notStarted (.os .notFound)

/-- The scratch machine as a machine without a host name, on which only the root is a mount
point. -/
def toMachine (s : Scratch) (stdin : Bytes) : Machine where
  hostname := none
  names := .silent
  read := s.read
  isFile path := match s.resolve path with
    | .ok (.file _) => !hasNul path
    | _ => false
  stdin := stdin
  execute := s.execute
  isLive := Path.isRoot

example :
    let s : Scratch := { files := [("a", [1])], program := { name := "p" } }
    s.resolve "./a" = .ok (.file [1]) ∧ s.resolve "a/.." = .error .notADirectory ∧
      s.resolve "b/.." = .error .notFound ∧ s.resolve "../.." = .ok .directory ∧
      s.resolve "../../../dev/./null" = .ok (.file []) :=
  ⟨rfl, rfl, rfl, rfl, rfl⟩

end Scratch

end NodeHealth
