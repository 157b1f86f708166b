import NodeHealth.Verdict.Status

/-!
# Verdicts

A verdict is the result of one check: a status code, a message that begins with the code's label,
and the instances that the message lists.
-/

namespace NodeHealth

/-- The result of a check. -/
structure Verdict where
  status : Status
  message : String
  instances : List String := []
  deriving DecidableEq, Repr

namespace Verdict

/-- A verdict whose message is the label of its code and the given text. -/
def ofText (status : Status) (text : String) (instances : List String) : Verdict where
  status := status
  message := status.label ++ " - " ++ text
  instances := instances

/-- The verdict of a check that could not be carried out. -/
def unknown (text : String) : Verdict := ofText .unknown text []

end Verdict

end NodeHealth
