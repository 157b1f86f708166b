import NodeHealth.Pod.Row
import NodeHealth.Pod.Identities

/-!
# Match sets

The rows that belong to the checked node, in the order of the listing. Both ways to narrow a set
are filters.
-/

namespace NodeHealth

/-- Whether the ip or the node of a row is one of the identities. -/
def Row.belongsTo (r : Row) (ids : Identities) : Bool := ids.contains r.ip || ids.contains r.node

theorem Row.belongsTo_iff {r : Row} {ids : Identities} :
    r.belongsTo ids = true ↔ r.ip ∈ ids.entries ∨ r.node ∈ ids.entries := by
  simp [belongsTo, Identities.contains]

/-- Rows in the order of a listing. -/
structure MatchSet where
  rows : List Row := []
  deriving DecidableEq, Repr

namespace MatchSet

/-- The rows that belong to the identities. -/
def select (rows : List Row) (ids : Identities) : MatchSet := ⟨rows.filter (·.belongsTo ids)⟩

/-- Selects again, from the rows of a set. -/
def reselect (set : MatchSet) (ids : Identities) : MatchSet := select set.rows ids

/-- The rows whose name begins with the given text. -/
def named (set : MatchSet) (start : String) : MatchSet :=
  ⟨set.rows.filter fun r => start.toList.isPrefixOf r.name.toList⟩

end MatchSet

end NodeHealth
