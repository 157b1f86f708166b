import NodeHealth.Verdict.Render
import NodeHealth.Run.Check

/-!
# Commands and flags

What the command line offers: four commands, and flags of which some belong to every command and
some to one. A flag that takes a value sets one part of `Settings`; `Settings.set` reads the value.
-/

namespace NodeHealth

/-- The commands. -/
inductive Command where
  | pods
  | restarts
  | mounts
  | initConfig
  deriving DecidableEq, Repr

namespace Command

def name : Command → String
  | pods => "pods"
  | restarts => "restarts"
  | mounts => "mounts"
  | initConfig => "init-config"

def ofName? (word : String) : Option Command :=
  [pods, restarts, mounts, initConfig].find? (·.name == word)

end Command

/-- The flags of all commands. -/
inductive Flag where
  | config
  | format
  | verbose
  | help
  | version
  | hostname
  | identity
  | kubeconfig
  | warn
  | crit
  | input
  | table
  deriving DecidableEq, Repr

namespace Flag

/-- The name of a flag behind two dashes. -/
def long : Flag → String
  | config => "config"
  | format => "format"
  | verbose => "verbose"
  | help => "help"
  | version => "version"
  | hostname => "hostname"
  | identity => "identity"
  | kubeconfig => "kubeconfig"
  | warn => "warn"
  | crit => "crit"
  | input => "input"
  | table => "table"

/-- The name of a flag behind one dash. -/
def short? : Flag → Option Char
  | format => some 'f'
  | verbose => some 'v'
  | help => some 'h'
  | version => some 'V'
  | warn => some 'w'
  | crit => some 'c'
  | _ => none

def takesValue : Flag → Bool
  | verbose | help | version => false
  | _ => true

/-- A flag as messages show it: with the name of its value if it takes one. -/
def shown (f : Flag) : String :=
  "--" ++ f.long ++ if f.takesValue then " <" ++ f.long.toUpper ++ ">" else ""

/-- The flags of a command, or of the command line in front of the command. -/
def available : Option Command → List Flag
  | none | some .initConfig => [config, format, verbose, help, version]
  | some .mounts => [config, format, verbose, help, version, table]
  | some .pods | some .restarts =>
    [config, format, verbose, help, version, hostname, identity, kubeconfig, warn, crit, input]

def ofLong? (scope : Option Command) (word : String) : Option Flag :=
  (available scope).find? (·.long == word)

def ofShort? (scope : Option Command) (c : Char) : Option Flag :=
  (available scope).find? (·.short? == some c)

end Flag

/-- Why a text is no count. -/
inductive CountFault where
  | numeral (fault : Numeral.Fault)
  | outOfRange (n : Int)
  deriving DecidableEq, Repr

def CountFault.message : CountFault → String
  | numeral .empty => "cannot parse integer from empty string"
  | numeral .invalidDigit => "invalid digit found in string"
  | numeral .tooLarge => "number too large to fit in target type"
  | numeral .tooSmall => "number too small to fit in target type"
  | outOfRange n => toString n ++ " is not in 0..=4294967295"

/-- Reads a 32-bit count, as a signed number first. -/
def CountFault.count (s : String) : Except CountFault UInt32 :=
  match Numeral.int64 s with
  | .error fault => .error (.numeral fault)
  | .ok n =>
    match Numeral.word32OfInt? n with
    | some count => .ok count
    | none => .error (.outOfRange n)

/-- What is wrong with a command line. -/
inductive UsageError where
  | missingSubcommand
  | unknownSubcommand (word : String)
  | unexpectedArgument (arg : String)
  | valueRequired (flag : Flag)
  | unneededValue (flag : Flag) (value : String)
  | repeated (flag : Flag)
  | invalidFormat (value : String)
  | invalidCount (flag : Flag) (value : String) (fault : CountFault)
  deriving DecidableEq, Repr

/-- What the flags of a command line say. -/
structure Settings where
  config : Option String := none
  format : Option Format := none
  verbose : Bool := false
  pods : PodRequest := {}
  mounts : MountRequest := {}
  deriving DecidableEq, Repr

namespace Settings

/-- A path, which cannot be empty. -/
def path (flag : Flag) (value : String) : Except UsageError String :=
  if value.isEmpty then .error (.valueRequired flag) else .ok value

def formatOf (value : String) : Except UsageError Format :=
  if value.isEmpty then .error (.valueRequired .format)
  else match Format.ofName? value with
    | some f => .ok f
    | none => .error (.invalidFormat value)

def count (flag : Flag) (value : String) : Except UsageError UInt32 :=
  (CountFault.count value).mapError (.invalidCount flag value)

/-- Whether a flag that may occur once has occurred. -/
def has (s : Settings) : Flag → Bool
  | .config => s.config.isSome
  | .format => s.format.isSome
  | .verbose => s.verbose
  | .hostname => s.pods.hostname.isSome
  | .kubeconfig => s.pods.kubeconfig.isSome
  | .warn => s.pods.warn.isSome
  | .crit => s.pods.crit.isSome
  | .input => s.pods.input.isSome
  | .table => s.mounts.table.isSome
  | .identity | .help | .version => false

/-- Gives a flag a value; a flag that may occur once does so only once, whatever the value. -/
def set (s : Settings) (flag : Flag) (value : String) : Except UsageError Settings :=
  if s.has flag then .error (.repeated flag)
  else match flag with
    | .config => (path flag value).map fun p => { s with config := p }
    | .format => (formatOf value).map fun f => { s with format := f }
    | .hostname => .ok { s with pods.hostname := value }
    | .identity => .ok { s with pods.identities := s.pods.identities ++ [value] }
    | .kubeconfig => (path flag value).map fun p => { s with pods.kubeconfig := p }
    | .warn => (count flag value).map fun n => { s with pods.warn := n }
    | .crit => (count flag value).map fun n => { s with pods.crit := n }
    | .input => (path flag value).map fun p => { s with pods.input := p }
    | .table => (path flag value).map fun p => { s with mounts.table := p }
    | .verbose | .help | .version => .ok s

/-- The settings of a command, completed by those in front of it. -/
def completedBy (inner outer : Settings) : Settings :=
  { inner with
    config := inner.config <|> outer.config
    format := inner.format <|> outer.format
    verbose := inner.verbose || outer.verbose }

end Settings

end NodeHealth
