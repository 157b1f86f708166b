import Mathlib.Control.Monad.Basic
import NodeHealth.Run.Check

/-!
# When a pod check gives a verdict

A run with identities merges the given thresholds with those of the configuration, refuses the
result if it is inverted, and judges the listing by it otherwise.

* `PodRequest.thresholds_eq_ok_iff`: the thresholds that a run goes by.
* `PodRequest.run_eq_ok_iff`: when a run with identities gives a verdict, and which.
* `PodRequest.run_inverted`: what it does with inverted thresholds.
-/

namespace NodeHealth

namespace PodRequest

variable {r : PodRequest} {m : Machine} {hostsFile : String} {config : Config} {policy : Policy}

theorem thresholds_of_inverted {base t : Thresholds} (ht : base.override r.warn r.crit = t)
    (h : t.crit < t.warn) : r.thresholds base = .error (.invertedThresholds t) := by
  unfold thresholds
  rw [ht]
  exact if_pos (decide_eq_true h)

theorem thresholds_eq_ok_iff {base t : Thresholds} :
    r.thresholds base = .ok t ↔ base.override r.warn r.crit = t ∧ t.warn ≤ t.crit := by
  by_cases hinverted : (base.override r.warn r.crit).crit < (base.override r.warn r.crit).warn
  · rw [thresholds_of_inverted rfl hinverted]
    refine ⟨nofun, ?_⟩
    rintro ⟨rfl, horder⟩
    exact absurd hinverted (UInt32.not_lt.2 horder)
  · have hok : r.thresholds base = .ok (base.override r.warn r.crit) :=
      if_neg fun h => hinverted (of_decide_eq_true h)
    rw [hok, Except.ok.injEq]
    refine ⟨?_, And.left⟩
    rintro rfl
    exact ⟨rfl, UInt32.not_lt.1 hinverted⟩

theorem run_of_no_identity (hids : (r.candidates m hostsFile).isEmpty = true) :
    r.run m hostsFile config policy = .ok (Verdict.unknown "No candidate identity given.") := by
  unfold run
  rw [if_pos hids]

theorem run_inverted (hids : (r.candidates m hostsFile).isEmpty = false) {t : Thresholds}
    (ht : config.thresholds.override r.warn r.crit = t) (h : t.crit < t.warn) :
    r.run m hostsFile config policy = .error (.invertedThresholds t) := by
  unfold run
  rw [if_neg (Bool.eq_false_iff.1 hids), thresholds_of_inverted ht h]
  rfl

theorem run_eq_ok_iff (hids : (r.candidates m hostsFile).isEmpty = false) {v : Verdict} :
    r.run m hostsFile config policy = .ok v ↔
      ∃ t text, r.thresholds config.thresholds = .ok t ∧ r.listing m config.kubectl = .ok text ∧
        v = (judge config policy t (r.candidates m hostsFile) text).verdict := by
  unfold run
  simp only [hids]
  cases ht : r.thresholds config.thresholds with
  | error e => simp [bind, Except.bind]
  | ok t =>
    cases htext : r.listing m config.kubectl with
    | error e => simp [bind, Except.bind]
    | ok text => simp [bind, Except.bind, eq_comm]

end PodRequest

end NodeHealth
