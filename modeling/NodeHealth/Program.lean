import NodeHealth.CommandLine.Invocation
import NodeHealth.CommandLine.Usage

/-!
# The program

A run prints one report and exits with the status that the report names. Whatever goes wrong is
reported as unknown: usage errors as text, everything else in the form that was asked for. The
version, help and the default configuration are printed as they are, with status zero.
-/

namespace NodeHealth

/-- What a run leaves behind. -/
structure Output where
  stdout : String
  exit : Nat
  deriving DecidableEq, Repr

namespace Output

/-- Some text that is no report. -/
def ofText (text : String) : Output := ⟨text, 0⟩

/-- The report of a verdict. -/
def ofVerdict (v : Verdict) (f : Format) : Output := ⟨v.render f ++ "\n", v.status.exitCode⟩

end Output

namespace Invocation

def programName : String := "podwatch"

def versionNumber : String := "0.1.0"

def versionText (scope : Option Command) : String :=
  programName ++ (match scope with
    | some c => "-" ++ c.name
    | none => "") ++ " " ++ versionNumber ++ "\n"

/-- The usage in brief. The pages of help on each command, with their layout, are not reproduced:
no report depends on them. -/
def helpText : String :=
  "Usage: " ++ programName ++
    " [--config <CONFIG>] [--format <FORMAT>] [--verbose] <COMMAND>\n\n" ++
    "Commands: pods, restarts, mounts, init-config\n"

/-- Where the hosts file is. -/
def hostsFile : String := "/etc/hosts"

end Invocation

namespace Check

/-- Carries out a check under a configuration. -/
def run (m : Machine) (config : Config) : Check → Except RunError Verdict
  | .pods policy request => request.run m Invocation.hostsFile config policy
  | .mounts request => request.run m config

/-- Reads the configuration and carries out a check. -/
def runConfigured (c : Check) (m : Machine) (configPath : Option String) :
    Except RunError Verdict := do
  let config ← (Config.load m configPath).mapError .config
  c.run m config

/-- The verdict of a run, whether it fails or not. -/
def verdict (c : Check) (m : Machine) (configPath : Option String) : Verdict :=
  match c.runConfigured m configPath with
  | .ok v => v
  | .error e => Verdict.unknown e.message

end Check

/-- Carries out what a command line asks for. -/
def Invocation.run (i : Invocation) (m : Machine) : Output :=
  match i.task with
  | .check c => .ofVerdict (c.verdict m i.config) i.format
  | .initConfig => .ofText (Config.toToml {})

/-- Runs the program on a machine. -/
def runProgram (m : Machine) (args : List String) : Output :=
  match Invocation.ofArgs args with
  | .ok i => i.run m
  | .error (.usage e) => .ofVerdict (Verdict.unknown e.summary) .text
  | .error .help => .ofText Invocation.helpText
  | .error (.version scope) => .ofText (Invocation.versionText scope)

end NodeHealth
