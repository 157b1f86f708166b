import NodeHealth.Machine.Fault
import NodeHealth.Text.Utf8
import NodeHealth.Duration
import NodeHealth.Hosts

/-!
# The machine

Everything that a run learns from outside is an answer of the machine it runs on, and the machine
is a value: the same machine gives the same answers, so that a run is a function of it.
-/

namespace NodeHealth

/-- How a program ended. -/
inductive ExitStatus where
  | code (n : Nat)
  | signal (n : Nat)
  deriving DecidableEq, Repr

namespace ExitStatus

def isSuccess (s : ExitStatus) : Bool := s == code 0

/-- The names of the signals, the first of which has number one. -/
def signalNames : List String :=
  ["SIGHUP", "SIGINT", "SIGQUIT", "SIGILL", "SIGTRAP", "SIGABRT", "SIGBUS", "SIGFPE", "SIGKILL",
    "SIGUSR1", "SIGSEGV", "SIGUSR2", "SIGPIPE", "SIGALRM", "SIGTERM", "SIGSTKFLT", "SIGCHLD",
    "SIGCONT", "SIGSTOP", "SIGTSTP", "SIGTTIN", "SIGTTOU", "SIGURG", "SIGXCPU", "SIGXFSZ",
    "SIGVTALRM", "SIGPROF", "SIGWINCH", "SIGIO", "SIGPWR", "SIGSYS"]

def text : ExitStatus → String
  | code n => "exit status: " ++ Numeral.digits n
  | signal n =>
    "signal: " ++ Numeral.digits n ++
      match n with
      | 0 => ""
      | i + 1 => match signalNames[i]? with
        | some name => " (" ++ name ++ ")"
        | none => ""

end ExitStatus

/-- What became of a program that was to be run. -/
inductive Execution where
  | notStarted (cause : StartError)
  /-- It ran longer than it may. -/
  | timedOut
  | finished (status : ExitStatus) (stdout stderr : Bytes)
  deriving DecidableEq, Repr

/-- The answers of a machine. -/
structure Machine where
  /-- The name of the host, if it has one. -/
  hostname : Option String
  names : NameService
  /-- The bytes of the file at a path. -/
  read : String → Except ReadError Bytes
  /-- Whether there is a regular file at a path. -/
  isFile : String → Bool
  stdin : Bytes
  /-- Runs a program with arguments for at most the given time. -/
  execute : (program : String) → (args : List String) → (limit : Duration) → Execution
  /-- Whether a path is a mount point that answers. -/
  isLive : String → Bool

namespace Machine

/-- The text of bytes that have to be well formed. -/
def textOf (bytes : Bytes) : Except ReadError String :=
  match Utf8.decode? bytes with
  | some s => .ok s
  | none => .error .notUtf8

/-- The text of the file at a path. -/
def readText (m : Machine) (path : String) : Except ReadError String :=
  (m.read path).bind textOf

end Machine

end NodeHealth
