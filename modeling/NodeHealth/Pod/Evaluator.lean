import NodeHealth.Pod.Rule
import NodeHealth.Pod.Listing

/-!
# Evaluating a match set

An evaluator is a policy, thresholds and the name of the checked workload. It decides by the first
rule of the policy that fires (`judge`); `checkListing` puts reading, selection and evaluation
together.
-/

namespace NodeHealth

/-- The rule that decided and the verdict it gave. -/
structure Decision where
  rule : Rule
  verdict : Verdict
  deriving DecidableEq, Repr

/-- The workload that messages name if no other is given. -/
def defaultSubject : String := "iRODS CSI Driver"

/-- How a match set is judged. -/
structure Evaluator where
  policy : Policy := .singleton
  thresholds : Thresholds := {}
  subject : String := defaultSubject
  deriving DecidableEq, Repr

namespace Evaluator

/-- The first rule that fires on a census, with the labels it lists. -/
def firstFiring (rules : List Rule) (c : Census) : Rule × List String :=
  (rules.findSome? fun r => (r.fires? c).map fun labels => (r, labels)).getD (.fallback, [])

/-- The decision on a match set. -/
def judge (e : Evaluator) (set : MatchSet) : Decision :=
  let (rule, labels) := firstFiring e.policy.rules (Census.ofSet set e.thresholds)
  { rule
    verdict := Verdict.ofText rule.status (rule.text e.subject e.thresholds labels) labels }

/-- The verdict on a match set. -/
def evaluate (e : Evaluator) (set : MatchSet) : Verdict := (e.judge set).verdict

/-- The verdict on the rows of a listing that belong to the identities. -/
def checkListing (e : Evaluator) (text : String) (ids : Identities) : Verdict :=
  e.evaluate (MatchSet.select (Row.ofListing text) ids)

end Evaluator

end NodeHealth
