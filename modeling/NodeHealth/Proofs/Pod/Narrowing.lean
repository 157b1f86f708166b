import NodeHealth.Pod.Evaluator

/-!
# Narrowing a match set

A match set is narrowed step by step, by identities or by the beginning of a name (`Narrowing`). A
step keeps the rows that pass a test, and the test looks at no other row, so a run of steps keeps
the rows that pass all their tests, whatever the order.

* `MatchSet.rows_narrowOnce`: what one step leaves.
* `MatchSet.rows_narrow`: a run leaves the rows that pass the tests of all its steps.
* `MatchSet.narrow_order_free`: it only matters which steps were taken, to the set and to every
  decision on it.
-/

namespace NodeHealth

/-- A step that narrows a match set. -/
inductive Narrowing where
  /-- Selects again, by identities. -/
  | reselect (ids : Identities)
  /-- Keeps the rows whose name begins with a text. -/
  | named (start : String)
  deriving DecidableEq, Repr

namespace Narrowing

/-- What a step asks of a row. -/
def Admits (row : Row) : Narrowing → Prop
  | reselect ids => row.ip ∈ ids.entries ∨ row.node ∈ ids.entries
  | named start => start.toList <+: row.name.toList

instance (row : Row) : DecidablePred (Admits row)
  | reselect ids => inferInstanceAs (Decidable (row.ip ∈ ids.entries ∨ row.node ∈ ids.entries))
  | named start => inferInstanceAs (Decidable (start.toList <+: row.name.toList))

end Narrowing

namespace MatchSet

/-- The set that a step leaves. -/
def narrowOnce (set : MatchSet) : Narrowing → MatchSet
  | .reselect ids => set.reselect ids
  | .named start => set.named start

/-- The set that steps leave one after the other. -/
def narrow (set : MatchSet) (steps : List Narrowing) : MatchSet := steps.foldl narrowOnce set

theorem rows_narrowOnce (set : MatchSet) (step : Narrowing) :
    (set.narrowOnce step).rows = set.rows.filter fun row => step.Admits row := by
  cases step with
  | reselect ids =>
    refine List.filter_congr fun row _ => ?_
    rw [Bool.eq_iff_iff, Row.belongsTo_iff, decide_eq_true_iff]
    rfl
  | named start =>
    refine List.filter_congr fun row _ => ?_
    rw [Bool.eq_iff_iff, List.isPrefixOf_iff_prefix, decide_eq_true_iff]
    rfl

/-- A run leaves the rows that pass the tests of all its steps. -/
theorem rows_narrow (set : MatchSet) (steps : List Narrowing) :
    (set.narrow steps).rows = set.rows.filter fun row => ∀ step ∈ steps, step.Admits row := by
  induction steps generalizing set with
  | nil =>
    exact (List.filter_eq_self.2 fun row _ => decide_eq_true (List.forall_mem_nil _)).symm
  | cons step steps ih =>
    have hstep : set.narrow (step :: steps) = (set.narrowOnce step).narrow steps := rfl
    rw [hstep, ih, rows_narrowOnce, List.filter_filter]
    refine List.filter_congr fun row _ => ?_
    simp only [List.forall_mem_cons, Bool.decide_and, Bool.and_comm]

theorem narrow_congr {set : MatchSet} {steps steps' : List Narrowing}
    (h : ∀ step, step ∈ steps' ↔ step ∈ steps) : set.narrow steps' = set.narrow steps := by
  have hrows : (set.narrow steps').rows = (set.narrow steps).rows := by
    simp only [rows_narrow, h]
  exact congrArg MatchSet.mk hrows

/-- A run of steps leaves the rows that all of them admit, in the order of the listing. The order of
the steps and their repetition make no difference, neither to the set nor to a decision on it, and
no step adds a row, changes one or gives it once more. -/
theorem narrow_order_free (rows : List Row) (steps : List Narrowing) :
    ((MatchSet.mk rows).narrow steps).rows =
      rows.filter (fun row => ∀ step ∈ steps, step.Admits row) ∧
    (∀ steps', (∀ step, step ∈ steps' ↔ step ∈ steps) →
      (MatchSet.mk rows).narrow steps' = (MatchSet.mk rows).narrow steps ∧
      ∀ e : Evaluator,
        e.judge ((MatchSet.mk rows).narrow steps') = e.judge ((MatchSet.mk rows).narrow steps)) ∧
    ∀ (set : MatchSet) (step : Narrowing), (set.narrowOnce step).rows.Sublist set.rows := by
  refine ⟨rows_narrow ⟨rows⟩ steps, ?_, ?_⟩
  · intro steps' hsteps
    have hset : (MatchSet.mk rows).narrow steps' = (MatchSet.mk rows).narrow steps :=
      narrow_congr hsteps
    exact ⟨hset, fun e => by rw [hset]⟩
  · intro set step
    rw [rows_narrowOnce]
    exact List.filter_sublist

/-- A listing that has one of its rows twice. -/
def repeatedRows : List Row :=
  [⟨"pod-a", "Running", 0, "10.0.0.1", "n1", none⟩,
    ⟨"pod-a", "Running", 0, "10.0.0.1", "n1", none⟩,
    ⟨"pod-b", "Running", 0, "10.0.0.2", "n2", none⟩,
    ⟨"job", "Running", 0, "10.0.0.3", "n1", none⟩]

theorem narrow_order_free_repeatedRows :
    (∀ step, step ∈ [.named "pod-", .reselect ⟨["n1"]⟩, .named "pod-"] ↔
      step ∈ [.reselect ⟨["n1"]⟩, Narrowing.named "pod-"]) ∧
    (MatchSet.mk repeatedRows).narrow [.named "pod-", .reselect ⟨["n1"]⟩, .named "pod-"] =
      (MatchSet.mk repeatedRows).narrow [.reselect ⟨["n1"]⟩, .named "pod-"] ∧
    ((MatchSet.mk repeatedRows).narrow [.reselect ⟨["n1"]⟩, .named "pod-"]).rows =
      repeatedRows.take 2 := by
  have hsteps : ∀ step, step ∈ [.named "pod-", .reselect ⟨["n1"]⟩, .named "pod-"] ↔
      step ∈ [.reselect ⟨["n1"]⟩, Narrowing.named "pod-"] := by
    intro step
    simp only [List.mem_cons, List.not_mem_nil, or_false]
    exact ⟨fun h => h.elim .inr id, .inr⟩
  obtain ⟨hrows, horder, -⟩ :=
    narrow_order_free repeatedRows [.reselect ⟨["n1"]⟩, .named "pod-"]
  refine ⟨hsteps, (horder _ hsteps).1, ?_⟩
  rw [hrows]
  decide +kernel

end MatchSet

end NodeHealth
