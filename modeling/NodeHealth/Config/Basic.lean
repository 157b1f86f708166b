import NodeHealth.Pod.Evaluator
import NodeHealth.Duration
import NodeHealth.Machine.Fault

/-!
# Configuration

What a run takes from its configuration file: how pods are listed, the restart thresholds, the name
of the checked workload and the mounts to check. `Config.validate` judges a complete configuration,
the timeout before the thresholds.
-/

namespace NodeHealth

/-- How pods are listed. -/
structure KubectlConfig where
  binary : String := "kubectl"
  kubeconfig : Option String := none
  podNamespace : String := "irods-csi-driver"
  selector : String := "app.kubernetes.io/instance=irods-csi-driver-node"
  timeout : String := "30s"
  deriving DecidableEq, Repr

/-- What is checked. -/
structure CheckConfig where
  /-- The name of the workload in messages. -/
  subject : String := defaultSubject
  /-- How the names of the instances begin to which the restart check is limited. -/
  nameStart : String := "irods-csi-driver-node"
  deriving DecidableEq, Repr

/-- Which mounts are checked. -/
structure MountsConfig where
  /-- The path of the mount table. -/
  table : String := "/proc/mounts"
  /-- The sources of the mounts that belong to the driver. -/
  sources : List String := ["irodsfs"]
  deriving DecidableEq, Repr

/-- A complete configuration; its default values apply where a file says nothing. -/
structure Config where
  kubectl : KubectlConfig := {}
  thresholds : Thresholds := {}
  check : CheckConfig := {}
  mounts : MountsConfig := {}
  deriving DecidableEq, Repr

/-- Why there is no configuration. -/
inductive ConfigError where
  | read (path : String) (cause : ReadError)
  /-- The file is no TOML document, or a value in it has the wrong type. Which of them, and where,
  is not told: the wording of a syntax fault is that of the reader of the document. -/
  | malformed
  | invalidDuration (text : String)
  | invertedThresholds (thresholds : Thresholds)
  deriving DecidableEq, Repr

def ConfigError.message : ConfigError → String
  | read path cause => "failed to read config " ++ path ++ ": " ++ cause.message
  | malformed => "failed to parse config: malformed document"
  | invalidDuration text => "invalid duration: " ++ text
  | invertedThresholds t => t.invertedMessage

/-- The time that listing pods may take. -/
def KubectlConfig.limit (k : KubectlConfig) : Except ConfigError Duration :=
  match Duration.ofText? k.timeout with
  | some d => .ok d
  | none => .error (.invalidDuration k.timeout)

namespace Config

/-- Accepts a configuration whose timeout is a duration and whose thresholds are in order. -/
def validate (c : Config) : Except ConfigError Unit := do
  let _ ← c.kubectl.limit
  if c.thresholds.isInverted then .error (.invertedThresholds c.thresholds) else .ok ()

end Config

end NodeHealth
