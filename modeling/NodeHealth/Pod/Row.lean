import NodeHealth.Text.Ascii

/-!
# Pod rows

A row is what the wide pod listing says of one instance: its name, phase, restart count, address
and node, and the locations beyond the listed one that an annotation counts.
-/

namespace NodeHealth

/-- One instance of a workload. An address or node that is not assigned is empty. -/
structure Row where
  name : String
  phase : String
  restarts : UInt32
  ip : String
  node : String
  /-- The number of unlisted locations, for a row with an annotation. -/
  overflow : Option UInt32 := none
  deriving DecidableEq, Repr

namespace Row

/-- Whether the phase is `running`, in any case. -/
def isRunning (r : Row) : Bool := Text.sameFolded r.phase "running"

/-- The name by which messages list a row: the instance and, in parentheses, its node. -/
def label (r : Row) : String := r.name ++ "(" ++ r.node ++ ")"

end Row

end NodeHealth
