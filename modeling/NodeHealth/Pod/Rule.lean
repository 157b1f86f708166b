import NodeHealth.Pod.MatchSet
import NodeHealth.Pod.Thresholds
import NodeHealth.Verdict.Basic

/-!
# Health rules

A rule looks at the census of a match set and, if it fires, gives the labels that its message
lists. A policy is a list of rules in order of precedence, of which the first that fires decides
(`Evaluator.judge`). Absence and duplication come before restarts, and critical restarts before
warning restarts, so that a decision reports the most severe condition alone.
-/

namespace NodeHealth

/-- A match set divided into running and other rows, with the thresholds to judge it by. -/
structure Census where
  running : List Row
  stopped : List Row
  thresholds : Thresholds
  deriving DecidableEq, Repr

namespace Census

def ofSet (set : MatchSet) (thresholds : Thresholds) : Census where
  running := set.rows.filter (·.isRunning)
  stopped := set.rows.filter (!·.isRunning)
  thresholds := thresholds

/-- The running rows that restarted more often than `limit`. -/
def restartedOver (c : Census) (limit : UInt32) : List Row :=
  c.running.filter (limit < ·.restarts)

end Census

/-- The rules of all policies. -/
inductive Rule where
  | healthySingleton
  | quiet
  | noneRunning
  | multipleRunning
  | stopped
  | criticalRestarts
  | warningRestarts
  | fallback
  deriving DecidableEq, Repr

namespace Rule

def name : Rule → String
  | healthySingleton => "healthy-singleton"
  | quiet => "quiet"
  | noneRunning => "none-running"
  | multipleRunning => "multiple-running"
  | stopped => "stopped"
  | criticalRestarts => "critical-restarts"
  | warningRestarts => "warning-restarts"
  | fallback => "fallback"

/-- The status of the verdict when a rule decides. -/
def status : Rule → Status
  | healthySingleton | quiet => .ok
  | noneRunning | multipleRunning | stopped | criticalRestarts => .critical
  | warningRestarts => .warning
  | fallback => .unknown

/-- The labels of some rows, if there are any rows. -/
def labelsOfAny (rows : List Row) : Option (List String) :=
  if rows.isEmpty then none else some (rows.map Row.label)

/-- The labels that a rule lists, if it fires. -/
def fires? (c : Census) : Rule → Option (List String)
  | healthySingleton =>
    if c.running.length == 1 && c.stopped.isEmpty && (c.restartedOver c.thresholds.warn).isEmpty
    then some [] else none
  | quiet =>
    if c.stopped.isEmpty && (c.restartedOver c.thresholds.warn).isEmpty then some [] else none
  | noneRunning => if c.running.isEmpty then some [] else none
  | multipleRunning => if 1 < c.running.length then some (c.running.map Row.label) else none
  | stopped => labelsOfAny c.stopped
  | criticalRestarts => labelsOfAny (c.restartedOver c.thresholds.crit)
  | warningRestarts => labelsOfAny (c.restartedOver c.thresholds.warn)
  | fallback => some []

/-- Labels as a message lists them. -/
def listing (labels : List String) : String := "[" ++ ", ".intercalate labels ++ "]"

/-- The message about instances that restarted more often than `limit`. -/
def restartText (subject : String) (limit : UInt32) (labels : List String) : String :=
  subject ++ " restarted more than " ++ toString limit.toNat ++
    " times. Restarted instances are " ++ listing labels ++ ". Check irodsfs mounts."

/-- The message when a rule decides, without the label of the status. -/
def text (subject : String) (t : Thresholds) (labels : List String) : Rule → String
  | healthySingleton | quiet => subject ++ " is running well."
  | noneRunning => subject ++ " is not running. No instance running."
  | multipleRunning =>
    subject ++ " is running more than 1 instance. Running instances are " ++ listing labels ++ "."
  | stopped => subject ++ " is not running. Failed instances are " ++ listing labels ++ "."
  | criticalRestarts => restartText subject t.crit labels
  | warningRestarts => restartText subject t.warn labels
  | fallback => subject ++ " status unknown."

end Rule

/-- What is expected of the instances on a node. -/
inductive Policy where
  /-- Exactly one instance runs. -/
  | singleton
  /-- Any number of instances run; only restarts and stopped instances count. -/
  | restartsOnly
  deriving DecidableEq, Repr

/-- The rules of a policy in order of precedence. -/
def Policy.rules : Policy → List Rule
  | .singleton =>
    [.healthySingleton, .noneRunning, .multipleRunning, .stopped, .criticalRestarts,
      .warningRestarts, .fallback]
  | .restartsOnly => [.quiet, .stopped, .criticalRestarts, .warningRestarts, .fallback]

end NodeHealth
