import NodeHealth.Run.Error
import NodeHealth.Machine.Path
import NodeHealth.Config.Document

/-!
# What a run reads

A run reads its configuration and a pod listing or mount table. Listings come from captured output
or from the program that lists pods.
-/

namespace NodeHealth

namespace Machine

/-- Captured output: the text of a file, or standard input for `-`. -/
def captured (m : Machine) (path : String) : Except RunError String :=
  if Path.isDash path then (textOf m.stdin).mapError .standardInput
  else (m.readText path).mapError (.input path)

/-- The first line that is not blank, without the blanks around it. -/
def reasonIn (stderr : String) : String :=
  (((Text.lines stderr).map Text.trim).find? (!·.isEmpty)).getD "no error output"

end Machine

namespace KubectlConfig

/-- The arguments that ask for a wide listing of the pods, without headings. -/
def listArgs (k : KubectlConfig) : List String :=
  ["get", "pods", "-n", k.podNamespace, "-o", "wide", "--no-headers", "--ignore-not-found"] ++
    (if k.selector.isEmpty then [] else ["-l", k.selector]) ++
    (match k.kubeconfig with
      | some path => ["--kubeconfig=" ++ path]
      | none => [])

/-- The listing that the program prints. -/
def list (k : KubectlConfig) (m : Machine) : Except RunError String := do
  let limit ← k.limit.mapError .config
  match m.execute k.binary k.listArgs limit with
  | .notStarted cause => .error (.notStarted k.binary cause)
  | .timedOut => .error (.timedOut k.binary limit)
  | .finished status stdout stderr =>
    if status.isSuccess then .ok (Utf8.lossy stdout)
    else .error (.failed k.binary status (Machine.reasonIn (Utf8.lossy stderr)))

end KubectlConfig

namespace Config

/-- Where the configuration is looked for if no path is given. -/
def standardPath : String := "/etc/podwatch.toml"

/-- The configuration in a file. -/
def ofFile (m : Machine) (path : String) : Except ConfigError Config :=
  match m.readText path with
  | .ok text => ofToml text
  | .error cause => .error (.read path cause)

/-- The configuration of a run. A given path must lead to one; without a path, the standard path
is tried and the default values apply if there is no file. -/
def load (m : Machine) : Option String → Except ConfigError Config
  | some path => ofFile m path
  | none => if m.isFile standardPath then ofFile m standardPath else .ok {}

end Config

end NodeHealth
