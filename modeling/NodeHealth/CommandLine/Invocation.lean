import NodeHealth.CommandLine.Flag

/-!
# Reading a command line

A command line is read argument by argument, first in front of the command and then behind it. The
value of a flag is looked at only when the next flag or the end of the line settles it; behind the
command everything is settled before the last flag in front of it is. Of several faults the one
that this order comes upon first is reported.
-/

namespace NodeHealth

/-- A check that a command line asks for. -/
inductive Check where
  | pods (policy : Policy) (request : PodRequest)
  | mounts (request : MountRequest)
  deriving DecidableEq, Repr

/-- What a command line asks for. -/
inductive Task where
  | check (c : Check)
  /-- Print the default configuration. -/
  | initConfig
  deriving DecidableEq, Repr

/-- A command line that was understood. -/
structure Invocation where
  task : Task
  config : Option String
  format : Format
  verbose : Bool
  deriving DecidableEq, Repr

/-- Why reading a command line ends early. -/
inductive Interruption where
  | usage (e : UsageError)
  | help
  /-- The version, behind a command or not. -/
  | version (scope : Option Command)
  deriving DecidableEq, Repr

namespace Invocation

/-- A flag that is not settled. -/
inductive Pending where
  | nothing
  /-- The next argument is the value of the flag. -/
  | awaiting (flag : Flag)
  | held (flag : Flag) (value : String)
  deriving DecidableEq, Repr

/-- How far the reading has come. -/
structure Progress where
  settings : Settings := {}
  pending : Pending := .nothing
  deriving DecidableEq, Repr

/-- Settles the flag that is not settled. -/
def Progress.settle (p : Progress) : Except Interruption Settings :=
  match p.pending with
  | .nothing => .ok p.settings
  | .awaiting flag => .error (.usage (.valueRequired flag))
  | .held flag value => (p.settings.set flag value).mapError .usage

/-- Takes up a flag with the value attached to it. -/
def attach (p : Progress) (flag : Flag) (value : String) : Except Interruption Progress := do
  let s ← p.settle
  let s ← (s.set flag value).mapError .usage
  .ok { settings := s }

/-- Takes up a flag whose value is the next argument. -/
def await (p : Progress) (flag : Flag) : Except Interruption Progress := do
  let s ← p.settle
  .ok { settings := s, pending := .awaiting flag }

/-- Takes up a flag without a value. -/
def switch (scope : Option Command) (p : Progress) (flag : Flag) :
    Except Interruption Progress := do
  let s ← p.settle
  match flag with
  | .help => .error .help
  | .version => .error (.version scope)
  | _ =>
    if s.has flag then .error (.usage (.repeated flag))
    else .ok { settings := { s with verbose := true } }

/-- Takes up an argument that begins with two dashes, given without them. -/
def longFlag (scope : Option Command) (p : Progress) (body : List Char) :
    Except Interruption Progress :=
  let (name, value?) := match Chars.cut? (· == '=') body with
    | some (name, value) => (String.ofList name, some (String.ofList value))
    | none => (String.ofList body, none)
  match Flag.ofLong? scope name with
  | none => .error (.usage (.unexpectedArgument ("--" ++ name)))
  | some flag =>
    match flag.takesValue, value? with
    | true, some value => attach p flag value
    | true, none => await p flag
    | false, some value => .error (.usage (.unneededValue flag value))
    | false, none => switch scope p flag

/-- Takes up an argument that begins with one dash, given without it: flags without a value and at
most one with a value, to which all that follows it belongs. -/
def shortFlags (scope : Option Command) (p : Progress) : List Char → Except Interruption Progress
  | [] => .ok p
  | c :: rest =>
    match Flag.ofShort? scope c with
    | none => .error (.usage (.unexpectedArgument (String.ofList ['-', c])))
    | some flag =>
      if flag.takesValue then
        match rest with
        | [] => await p flag
        | '=' :: value => attach p flag (String.ofList value)
        | value => attach p flag (String.ofList value)
      else (switch scope p flag).bind fun p => shortFlags scope p rest

/-- The name of the command that prints help. -/
def helpName : String := "help"

/-- The complaint about an argument that is neither flag nor value. -/
def unexpected (scope : Option Command) (arg : String) : UsageError :=
  if scope.isNone then .unknownSubcommand arg else .unexpectedArgument arg

/-- What follows two dashes alone are no flags; as no command takes other arguments, there may be
none. -/
def afterDashes (scope : Option Command) (p : Progress) :
    List String → Except Interruption Progress
  | [] => .ok p
  | arg :: _ =>
    if (Command.ofName? arg).isSome || arg == helpName then
      .error (.usage (.unexpectedArgument arg))
    else .error (.usage (unexpected scope arg))

/-- Takes up an argument that is no command. -/
def argument (scope : Option Command) (p : Progress) (arg : String) :
    Except Interruption Progress :=
  match arg.toList, p.pending with
  | '-' :: '-' :: body, _ => longFlag scope p body
  | '-' :: c :: body, _ => shortFlags scope p (c :: body)
  | _, .awaiting flag => .ok { p with pending := .held flag arg }
  | _, _ => .error (.usage (unexpected scope arg))

/-- Reads the arguments behind a command. -/
def readInner (command : Command) : Progress → List String → Except Interruption Settings
  | p, [] => p.settle
  | p, arg :: args =>
    if arg = "--" then (afterDashes (some command) p args).bind Progress.settle
    else (argument (some command) p arg).bind fun p => readInner command p args

/-- What the arguments of the help command ask for. -/
def readHelp : List String → Interruption
  | [] => .help
  | arg :: args =>
    if (Command.ofName? arg).isSome || arg == helpName then
      match args with
      | [] => .help
      | next :: _ => .usage (.unknownSubcommand next)
    else .usage (.unknownSubcommand arg)

/-- Whether the next argument is the value of a flag. -/
def Progress.isAwaiting (p : Progress) : Bool :=
  match p.pending with
  | .awaiting _ => true
  | _ => false

/-- Reads a command line up to the end: the command and its settings. -/
def readOuter : Progress → List String → Except Interruption (Command × Settings)
  | p, [] => do
    let _ ← p.settle
    .error (.usage .missingSubcommand)
  | p, arg :: args =>
    if !p.isAwaiting && arg == helpName then .error (readHelp args)
    else match (if p.isAwaiting then none else Command.ofName? arg) with
      | some command => do
        let inner ← readInner command {} args
        let outer ← p.settle
        .ok (command, inner.completedBy outer)
      | none =>
        if arg = "--" then do
          let _ ← (← afterDashes none p args).settle
          .error (.usage .missingSubcommand)
        else (argument none p arg).bind fun p => readOuter p args

/-- What a command is asked by its settings. -/
def taskOf (s : Settings) : Command → Task
  | .pods => .check (.pods .singleton s.pods)
  | .restarts => .check (.pods .restartsOnly s.pods)
  | .mounts => .check (.mounts s.mounts)
  | .initConfig => .initConfig

/-- Reads a command line. -/
def ofArgs (args : List String) : Except Interruption Invocation := do
  let (command, s) ← readOuter {} args
  .ok {
    task := taskOf s command
    config := s.config
    format := s.format.getD .text
    verbose := s.verbose }

end Invocation

end NodeHealth
