import Mathlib.Data.List.Forall2
import NodeHealth.Proofs.Pod.WideTable

/-!
# Reading undoes printing

`ofListing_text`: a printed table reads back as the rows that its pod lines show, in order, whatever
the shapes of the lines, the blanks in them, their endings and the lines between them.
-/

namespace NodeHealth

theorem Remark.overflowOf_of_counts {r : Remark} {n : UInt32} (h : r.Counts n) :
    Row.overflowOf r.tokens = n := by
  cases h with
  | counts used total h => rw [h, Row.overflowOf_counts]
  | words h => exact Row.overflowOf_of_no_slash h

/-- A pod line shows one row only, the one that reading it gives. -/
theorem PodLine.Shows.eq_row {p : PodLine} {row : Row} (h : p.Shows row) : row = p.row := by
  have hoverflow : row.overflow = p.shape.remark?.map fun r => Row.overflowOf r.tokens := by
    have hrel := h.overflow
    cases hr : p.shape.remark? with
    | none =>
      rw [hr] at hrel
      cases ho : row.overflow with
      | none => rfl
      | some n => rw [ho] at hrel; cases hrel
    | some r =>
      rw [hr] at hrel
      cases ho : row.overflow with
      | none => rw [ho] at hrel; cases hrel
      | some n =>
        rw [ho] at hrel
        cases hrel with
        | some hn => rw [Option.map_some, r.overflowOf_of_counts hn]
  cases row with
  | mk name phase restarts ip node overflow =>
    obtain ⟨rfl, rfl, rfl, rfl, rfl, -⟩ := h
    exact congrArg _ hoverflow

namespace WideTable

/-- A printed table reads back as the rows that its pod lines show. -/
theorem ofListing_text {t : WideTable} {rows : List Row}
    (h : List.Forall₂ PodLine.Shows t.pods rows) : Row.ofListing t.text = rows := by
  have hrows : t.pods.map PodLine.row = rows := by
    generalize t.pods = pods at h
    induction h with
    | nil => rfl
    | cons hrow _ ih => rw [List.map_cons, ih, hrow.eq_row]
  rw [ofListing_text_eq, hrows]

/-- What the pods of `sample` are. -/
def sampleRows : List Row :=
  [⟨"a", "Running", 0, "10.0.0.1", "n1", none⟩,
    ⟨"b", "Running", 12, "10.0.0.2", "worker-11", some 0⟩, ⟨"c", "Pending", 1, "", "", some 3⟩]

theorem ofListing_sample :
    List.Forall₂ PodLine.Shows sample.pods sampleRows ∧ Row.ofListing sample.text = sampleRows := by
  have h : List.Forall₂ PodLine.Shows sample.pods sampleRows :=
    .cons ⟨rfl, rfl, rfl, rfl, rfl, .none⟩ <|
      .cons ⟨rfl, rfl, rfl, rfl, rfl, .some (.words (by decide +kernel))⟩ <|
        .cons ⟨rfl, rfl, rfl, rfl, rfl, .some (.counts 1 4 (by decide +kernel))⟩ .nil
  exact ⟨h, ofListing_text h⟩

end WideTable

end NodeHealth
