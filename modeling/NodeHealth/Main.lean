import NodeHealth.Program

/-!
# The command

Puts the answers of this computer into a machine and runs the program on it. Programs are not
started from here and names are not resolved: pods are checked from captured output, and a node goes
by its host name and the hosts file. A mount point answers if the kernel lists it and it can be
opened as a directory.
-/

namespace NodeHealth.Main

/-- The fault that an input-output error reports. -/
def faultOf : IO.Error → OsError
  | .noFileOrDirectory .. => .notFound
  | .permissionDenied .. => .permissionDenied
  | .inappropriateType _ code _ => if code == 20 then .notADirectory else .isADirectory
  | e => .other (toString e)

/-- The bytes of a file. -/
def readFile (path : String) : IO (Except ReadError Bytes) := do
  if path.toList.contains '\x00' then return .error .nulInPath
  try
    return .ok (← IO.FS.readBinFile path).toList
  catch e => return .error (.os (faultOf e))

/-- Files by their paths. -/
abbrev Snapshot := List (String × Except ReadError Bytes)

def snapshot (paths : List String) : IO Snapshot :=
  paths.mapM fun path => return (path, ← readFile path)

def Snapshot.read (files : Snapshot) (path : String) : Except ReadError Bytes :=
  (files.lookup path).getD (.error (.os .notFound))

def Snapshot.isFile (files : Snapshot) (path : String) : Bool :=
  match files.read path with
  | .ok _ => true
  | .error e => e == .os .permissionDenied

/-- Where the kernel tells the host name. -/
def hostnamePath : String := "/proc/sys/kernel/hostname"

/-- Where the kernel lists its mounts. -/
def kernelMounts : String := "/proc/mounts"

/-- A machine that knows some files. -/
def machine (files : Snapshot) (stdin : Bytes) : Machine where
  hostname := ((files.read hostnamePath).toOption.bind Utf8.decode?).map Text.trim
  names := .silent
  read := files.read
  isFile := files.isFile
  stdin := stdin
  execute _ _ _ := .notStarted (.os (.other "Function not implemented (os error 38)"))
  isLive path :=
    ((files.read kernelMounts).toOption.bind Utf8.decode?).any
        (fun table => (Mount.ofTable table).any (·.mountpoint == path)) &&
      match files.read path with
      | .error e => e == .os .isADirectory
      | .ok _ => false

/-- The path of the captured output that a check reads. -/
def inputOf (config : Config) : Check → Option String
  | .pods _ request => request.input
  | .mounts request => some (request.table.getD config.mounts.table)

/-- Collects the files that a check reads and, for a mount check, those it probes. -/
def machineFor (c : Check) (configPath : Option String) : IO Machine := do
  let files ← snapshot
    [configPath.getD Config.standardPath, Invocation.hostsFile, hostnamePath, kernelMounts]
  match Config.load (machine files []) configPath with
  | .error _ => return machine files []
  | .ok config =>
    match inputOf config c with
    | none => return machine files []
    | some input =>
      let files := files ++ (← snapshot [input])
      let stdin ← if Path.isDash input then
          pure (← (← IO.getStdin).readBinToEnd).toList
        else pure []
      let m := machine files stdin
      match c, m.captured input with
      | .mounts _, .ok table =>
        let check : MountCheck := { sources := config.mounts.sources }
        let points := (check.driverMounts table).map Mount.mountpoint
        return machine (files ++ (← snapshot points)) stdin
      | _, _ => return m

/-- Runs the program on this computer. -/
def runHere (args : List String) : IO Output := do
  match Invocation.ofArgs args with
  | .ok { task := .check c, config, .. } => return runProgram (← machineFor c config) args
  | _ => return runProgram (machine [] []) args

end NodeHealth.Main

def main (args : List String) : IO UInt32 := do
  let output ← NodeHealth.Main.runHere args
  let stdout ← IO.getStdout
  stdout.putStr output.stdout
  stdout.flush
  return output.exit.toUInt32
