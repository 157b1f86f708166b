import NodeHealth.Mount.Table
import NodeHealth.Pod.Evaluator
import NodeHealth.Text.Ascii

/-!
# Checking mounts

The driver owns the mounts with one of its sources, compared without regard to case. The check
passes if all of them are live.
-/

namespace NodeHealth

/-- Which mounts belong to the driver, and the name messages give it. -/
structure MountCheck where
  sources : List String := ["irodsfs"]
  subject : String := defaultSubject
  deriving DecidableEq, Repr

namespace MountCheck

/-- Whether a mount belongs to the driver. -/
def owns (check : MountCheck) (m : Mount) : Bool :=
  check.sources.any fun source => Text.sameFolded source m.source

/-- The mounts of a table that belong to the driver, in order. -/
def driverMounts (check : MountCheck) (table : String) : List Mount :=
  (Mount.ofTable table).filter check.owns

/-- The mount points of the driver that are not live, in order. -/
def failed (check : MountCheck) (isLive : String → Bool) (table : String) : List String :=
  ((check.driverMounts table).map Mount.mountpoint).filter (!isLive ·)

/-- The verdict on a mount table. -/
def evaluate (check : MountCheck) (isLive : String → Bool) (table : String) : Verdict :=
  let failed := check.failed isLive table
  if failed.isEmpty then
    Verdict.ofText .ok
      (check.subject ++ " mounts are healthy (" ++ toString (check.driverMounts table).length ++
        " active).") []
  else
    Verdict.ofText .critical
      ("Found failed " ++ check.subject ++ " mount points at [" ++ ", ".intercalate failed ++ "].")
      failed

end MountCheck

end NodeHealth
