import NodeHealth.Run.Input
import NodeHealth.Mount.Check

/-!
# Running a check

`PodRequest.run` checks the pods of a node, `MountRequest.run` its mounts. A pod check without any
identity for the node gives its verdict before anything is read; after that come the thresholds,
the listing and the evaluation, and the first that fails ends the run.
-/

namespace NodeHealth

/-- What a pod check is asked. -/
structure PodRequest where
  /-- The host name of the node; without it, that of the machine. -/
  hostname : Option String := none
  /-- Further identities of the node. -/
  identities : List String := []
  kubeconfig : Option String := none
  warn : Option UInt32 := none
  crit : Option UInt32 := none
  /-- Captured output to read instead of listing the pods. -/
  input : Option String := none
  deriving DecidableEq, Repr

namespace PodRequest

/-- The thresholds of a check, unless they are inverted. -/
def thresholds (r : PodRequest) (base : Thresholds) : Except RunError Thresholds :=
  let t := base.override r.warn r.crit
  if t.isInverted then .error (.invertedThresholds t) else .ok t

/-- The listing that a check is about. -/
def listing (r : PodRequest) (m : Machine) (k : KubectlConfig) : Except RunError String :=
  match r.input with
  | some path => m.captured path
  | none => { k with kubeconfig := r.kubeconfig <|> k.kubeconfig }.list m

/-- The rows that a policy looks at. -/
def inScope (policy : Policy) (check : CheckConfig) (set : MatchSet) : MatchSet :=
  match policy with
  | .singleton => set
  | .restartsOnly => set.named check.nameStart

/-- The identities of the node that is checked. -/
def candidates (r : PodRequest) (m : Machine) (hostsFile : String) : Identities :=
  Identities.discover m.names (m.readText hostsFile).toOption (r.hostname <|> m.hostname)
    r.identities

/-- The decision on a listing. -/
def judge (config : Config) (policy : Policy) (t : Thresholds) (ids : Identities)
    (listing : String) : Decision :=
  Evaluator.judge { policy, thresholds := t, subject := config.check.subject }
    (inScope policy config.check (MatchSet.select (Row.ofListing listing) ids))

/-- Checks the pods of a node. -/
def run (r : PodRequest) (m : Machine) (hostsFile : String) (config : Config) (policy : Policy) :
    Except RunError Verdict :=
  let ids := r.candidates m hostsFile
  if ids.isEmpty then .ok (Verdict.unknown "No candidate identity given.")
  else do
    let t ← r.thresholds config.thresholds
    let listing ← r.listing m config.kubectl
    .ok (judge config policy t ids listing).verdict

end PodRequest

/-- What a mount check is asked. -/
structure MountRequest where
  /-- The mount table to read instead of the configured one. -/
  table : Option String := none
  deriving DecidableEq, Repr

/-- Checks the mounts of a node. -/
def MountRequest.run (r : MountRequest) (m : Machine) (config : Config) :
    Except RunError Verdict := do
  let table ← m.captured (r.table.getD config.mounts.table)
  let check : MountCheck := { sources := config.mounts.sources, subject := config.check.subject }
  .ok (check.evaluate m.isLive table)

end NodeHealth
