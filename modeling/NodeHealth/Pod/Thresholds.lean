/-!
# Restart thresholds

An instance is over a threshold if it restarted more often than the threshold says.
-/

namespace NodeHealth

/-- How many restarts are tolerated without a warning and without a critical status. -/
structure Thresholds where
  warn : UInt32 := 3
  crit : UInt32 := 10
  deriving DecidableEq, Repr

namespace Thresholds

/-- Whether warnings would begin above the critical threshold. -/
def isInverted (t : Thresholds) : Bool := t.crit < t.warn

/-- The complaint about inverted thresholds. -/
def invertedMessage (t : Thresholds) : String :=
  "warning threshold " ++ toString t.warn.toNat ++ " exceeds critical threshold " ++
    toString t.crit.toNat

/-- Given values in place of the base values. -/
def override (base : Thresholds) (warn crit : Option UInt32) : Thresholds where
  warn := warn.getD base.warn
  crit := crit.getD base.crit

end Thresholds

end NodeHealth
