import NodeHealth.Pod.Evaluator
import NodeHealth.Proofs.Pod.Reading

/-!
# The verdict is local to lines

Every line of a listing is read on its own, and only the rows of the checked node are judged. So a
line that is no pod line, or the line of another node's pod, cannot change a verdict, wherever it
stands and whatever surrounds it.

* `Row.ofListing_append`: the rows of a listing that is continued behind complete lines.
* `Evaluator.checkListing_eq`: a verdict is a function of the rows that single lines give.
* `Evaluator.checkListing_foreign`: lines of no concern make no difference.
-/

namespace NodeHealth

namespace Row

/-! ## Complete lines -/

/-- What follows complete lines does not change how they are read, nor they what follows. -/
theorem ofListing_append {a : String} (ha : Text.IsClosed a) (b : String) :
    ofListing (a ++ b) = ofListing a ++ ofListing b :=
  readsLines_ofLine?.readLines_append ha b

/-- A complete line gives the row that is read from it alone. -/
theorem ofListing_line {line : String} (h : '\n' ∉ line.toList) :
    ofListing (line ++ "\n") = (ofLine? line).toList := by
  have hempty : ofListing "" = [] := rfl
  have hfeed := readsLines_ofLine?.readLines_append_feed line ""
  rw [String.append_empty] at hfeed
  calc ofListing (line ++ "\n")
      = ofListing line ++ ofListing "" := hfeed
    _ = ofListing line := by rw [hempty, List.append_nil]
    _ = (ofLine? line).toList := readsLines_ofLine?.readLines_of_no_feed h

/-! ## The rows of a node -/

/-- The row of a line, if it is one of the identities' rows. -/
def ownLine? (ids : Identities) (line : String) : Option Row :=
  (ofLine? line).filter (·.belongsTo ids)

/-- A line of no concern: no pod line, or one whose ip and node are not among the identities. -/
def IsForeign (ids : Identities) (line : String) : Prop :=
  ∀ row, ofLine? line = some row → row.ip ∉ ids.entries ∧ row.node ∉ ids.entries

theorem belongsTo_eq_false_iff {row : Row} {ids : Identities} :
    row.belongsTo ids = false ↔ row.ip ∉ ids.entries ∧ row.node ∉ ids.entries := by
  rw [← Bool.not_eq_true, belongsTo_iff, not_or]

theorem rows_select_append (rows rows' : List Row) (ids : Identities) :
    (MatchSet.select (rows ++ rows') ids).rows =
      (MatchSet.select rows ids).rows ++ (MatchSet.select rows' ids).rows :=
  List.filter_append ..

theorem rows_select_foreign {ids : Identities} {line : String} (h : IsForeign ids line) :
    (MatchSet.select (ofLine? line).toList ids).rows = [] := by
  rw [MatchSet.select, List.filter_eq_nil_iff]
  intro row hrow
  rw [belongsTo_eq_false_iff.2 (h row (Option.mem_toList.1 hrow))]
  exact Bool.false_ne_true

theorem rows_select_ofListing (text : String) (ids : Identities) :
    (MatchSet.select (ofListing text) ids).rows = (Text.lines text).filterMap (ownLine? ids) := by
  rw [MatchSet.select, ofListing, List.filter_filterMap]
  rfl

end Row

namespace Evaluator

/-- A verdict is a function of the rows that single lines give. -/
theorem checkListing_eq (e : Evaluator) (text : String) (ids : Identities) :
    e.checkListing text ids = e.evaluate ⟨(Text.lines text).filterMap (Row.ownLine? ids)⟩ := by
  rw [← Row.rows_select_ofListing]
  rfl

/-- A line of no concern can be taken out of a listing, or put into it, at the beginning of any
line; and two listings in which the identities have the same rows in the same order have the same
verdict, whatever else they hold. -/
theorem checkListing_foreign (e : Evaluator) (ids : Identities) :
    (∀ a line b : String, Text.IsClosed a → '\n' ∉ line.toList → Row.IsForeign ids line →
      e.checkListing (a ++ line ++ "\n" ++ b) ids = e.checkListing (a ++ b) ids) ∧
    ∀ text text' : String,
      (Text.lines text).filterMap (Row.ownLine? ids) =
        (Text.lines text').filterMap (Row.ownLine? ids) →
      e.checkListing text ids = e.checkListing text' ids := by
  constructor
  · intro a line b ha hfeed hforeign
    have hline : Text.IsClosed (line ++ "\n") := by
      refine .inr ?_
      rw [String.toList_append]
      exact List.getLast?_concat
    have htext : a ++ line ++ "\n" ++ b = a ++ (line ++ "\n" ++ b) := by
      simp only [String.append_assoc]
    have hrows : (MatchSet.select (Row.ofListing (a ++ (line ++ "\n" ++ b))) ids).rows =
        (MatchSet.select (Row.ofListing (a ++ b)) ids).rows := by
      rw [Row.ofListing_append ha, Row.ofListing_append hline, Row.ofListing_line hfeed,
        Row.ofListing_append ha]
      simp only [Row.rows_select_append, Row.rows_select_foreign hforeign, List.nil_append]
    rw [htext]
    exact congrArg (fun rows => e.evaluate ⟨rows⟩) hrows
  · intro text text' hrows
    rw [checkListing_eq, checkListing_eq, hrows]

/-- The line of a pod that is well. -/
def calmLine : String := "a 3/3 Running 0 1d 10.0.0.1 n1 <none> <none>"

/-- The line of a pod of another node that has stopped. -/
def neighbourLine : String := "b 0/3 Failed 99 1d 10.0.0.2 n2 <none> <none>"

theorem checkListing_neighbourLine :
    Text.IsClosed (calmLine ++ "\n") ∧ Row.IsForeign ⟨["n1"]⟩ neighbourLine ∧
    checkListing {} (calmLine ++ "\n" ++ neighbourLine ++ "\n" ++ "b 0/3") ⟨["n1"]⟩ =
      checkListing {} (calmLine ++ "\n" ++ "b 0/3") ⟨["n1"]⟩ ∧
    checkListing {} (neighbourLine ++ "\r\n" ++ calmLine) ⟨["n1"]⟩ =
      checkListing {} (calmLine ++ "\n") ⟨["n1"]⟩ := by
  have hclosed : Text.IsClosed (calmLine ++ "\n") := .inr (by decide +kernel)
  have hforeign : Row.IsForeign ⟨["n1"]⟩ neighbourLine := by
    intro row hrow
    have hread : Row.ofLine? neighbourLine = some ⟨"b", "Failed", 99, "10.0.0.2", "n2", none⟩ := by
      decide +kernel
    rw [hread] at hrow
    cases hrow
    decide
  refine ⟨hclosed, hforeign, ?_, ?_⟩
  · exact (checkListing_foreign {} ⟨["n1"]⟩).1 _ _ _ hclosed (by decide +kernel) hforeign
  · exact (checkListing_foreign {} ⟨["n1"]⟩).2 _ _ (by decide +kernel)

end Evaluator

end NodeHealth
