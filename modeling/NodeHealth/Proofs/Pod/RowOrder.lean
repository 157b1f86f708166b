import Mathlib.Data.List.FinRange
import Mathlib.Data.List.Sort
import NodeHealth.Proofs.Pod.DecisionTable

/-!
# The order of the rows

A listing may come in any order. What is decided about a set depends on its running rows in their
order and on its other rows in theirs, and of the order only the lists of a message can tell.

* `filter_ofFn_comp`: a rearrangement that keeps the order of the chosen elements chooses the same
  list.
* `Decides.of_perm`: every case of the table is one of rows in any order.
* `judge_rearrange`: what a rearrangement of the rows does to a decision.
-/

namespace NodeHealth

/-! ## Rearrangements -/

/-- A rearrangement that keeps the order of the chosen elements chooses the same list. -/
theorem filter_ofFn_comp {α : Type} {n : Nat} (f : Fin n → α) (σ : Equiv.Perm (Fin n))
    {p : α → Bool} (h : ∀ i j, i < j → p (f (σ i)) → p (f (σ j)) → σ i < σ j) :
    (List.ofFn (f ∘ σ)).filter p = (List.ofFn f).filter p := by
  -- The chosen places are increasing lists with the same members.
  have hplaces : ((List.finRange n).filter (p ∘ f ∘ σ)).map σ =
      (List.finRange n).filter (p ∘ f) := by
    have hleft : (((List.finRange n).filter (p ∘ f ∘ σ)).map σ).Pairwise (· < ·) := by
      rw [List.pairwise_map, List.pairwise_filter]
      exact (List.pairwise_lt_finRange n).imp fun hij hi hj => h _ _ hij hi hj
    have hright : ((List.finRange n).filter (p ∘ f)).Pairwise (· < ·) :=
      (List.pairwise_lt_finRange n).filter _
    refine hleft.eq_of_mem_iff hright fun i => ?_
    simp only [List.mem_map, List.mem_filter, List.mem_finRange, true_and]
    constructor
    · rintro ⟨j, hj, rfl⟩
      exact hj
    · intro hi
      exact ⟨σ.symm i, by simpa using hi, σ.apply_symm_apply i⟩
  rw [List.ofFn_eq_map, List.ofFn_eq_map, List.filter_map, List.filter_map, ← hplaces,
    List.map_map]

namespace MatchSet

/-- The rows in another order: at place `i` stands the row that stood at place `σ i`. -/
def rearrange (set : MatchSet) (σ : Equiv.Perm (Fin set.rows.length)) : MatchSet :=
  ⟨List.ofFn fun i => set.rows[σ i]⟩

/-- Of two running rows the first stays before the second, and so of two that do not run. -/
def KeepsOrder (set : MatchSet) (σ : Equiv.Perm (Fin set.rows.length)) : Prop :=
  ∀ i j, i < j → (set.rows[σ i].Runs ↔ set.rows[σ j].Runs) → σ i < σ j

instance (set : MatchSet) (σ : Equiv.Perm (Fin set.rows.length)) : Decidable (set.KeepsOrder σ) :=
  inferInstanceAs (Decidable (∀ i j, i < j → (set.rows[σ i].Runs ↔ set.rows[σ j].Runs) → σ i < σ j))

variable {set set' : MatchSet}

theorem rearrange_perm (set : MatchSet) (σ : Equiv.Perm (Fin set.rows.length)) :
    (set.rearrange σ).rows.Perm set.rows := by
  have h := σ.ofFn_comp_perm set.rows.get
  rwa [List.ofFn_get] at h

theorem filter_rearrange {σ : Equiv.Perm (Fin set.rows.length)} {p : Row → Bool}
    (h : ∀ i j, i < j → p set.rows[σ i] → p set.rows[σ j] → σ i < σ j) :
    (set.rearrange σ).rows.filter p = set.rows.filter p := by
  have hfilter := filter_ofFn_comp set.rows.get σ h
  rwa [List.ofFn_get] at hfilter

theorem running_perm (h : set'.rows.Perm set.rows) : set'.running.Perm set.running :=
  h.filter _

theorem stopped_perm (h : set'.rows.Perm set.rows) : set'.stopped.Perm set.stopped :=
  h.filter _

theorem restartedOver_perm (h : set'.rows.Perm set.rows) (limit : UInt32) :
    (set'.restartedOver limit).Perm (set.restartedOver limit) :=
  (running_perm h).filter _

end MatchSet

/-! ## Decisions -/

open MatchSet

variable {e : Evaluator} {set set' : MatchSet} {d : Decision}

theorem Decides.status_eq (h : Decides e set d) : d.verdict.status = d.rule.status := by
  rw [Evaluator.verdict_of_decides h]
  rfl

/-- Rows in another order fall under the same case, which lists the same rows. -/
theorem Decides.of_perm (h : Decides e set d) (hperm : set'.rows.Perm set.rows) :
    ∃ d', Decides e set' d' ∧ d'.rule = d.rule ∧
      d'.verdict.instances.Perm d.verdict.instances := by
  have hrunning := running_perm hperm
  have hstopped := stopped_perm hperm
  have hover := restartedOver_perm hperm
  have hcount : set'.running.length = set.running.length := hrunning.length_eq
  have hnone : set'.stopped = [] ↔ set.stopped = [] := by
    simp only [stopped_eq_nil_iff, hperm.mem_iff]
  have hwithin : ∀ limit, set'.restartedOver limit = [] ↔ set.restartedOver limit = [] := by
    simp only [restartedOver_eq_nil_iff, hperm.mem_iff, implies_true]
  cases h with
  | healthySingleton policy one noneStopped noneOver =>
    exact ⟨_, .healthySingleton policy (hcount.trans one) (hnone.2 noneStopped)
      ((hwithin _).2 noneOver), rfl, .refl _⟩
  | quiet policy noneStopped noneOver =>
    exact ⟨_, .quiet policy (hnone.2 noneStopped) ((hwithin _).2 noneOver), rfl, .refl _⟩
  | noneRunning policy none =>
    rw [none] at hrunning
    exact ⟨_, .noneRunning policy hrunning.eq_nil, rfl, .refl _⟩
  | multipleRunning policy many =>
    exact ⟨_, .multipleRunning policy (hcount ▸ many), rfl, hrunning.map _⟩
  | stopped one someStopped =>
    exact ⟨_, .stopped (fun policy => hcount.trans (one policy)) (mt hnone.1 someStopped), rfl,
      hstopped.map _⟩
  | criticalRestarts one noneStopped someOver someCritical =>
    exact ⟨_, .criticalRestarts (fun policy => hcount.trans (one policy)) (hnone.2 noneStopped)
      (mt (hwithin _).1 someOver) (mt (hwithin _).1 someCritical), rfl, (hover _).map _⟩
  | warningRestarts one noneStopped someOver noneCritical =>
    exact ⟨_, .warningRestarts (fun policy => hcount.trans (one policy)) (hnone.2 noneStopped)
      (mt (hwithin _).1 someOver) ((hwithin _).2 noneCritical), rfl, (hover _).map _⟩

theorem Census.ofSet_eq (set : MatchSet) (t : Thresholds) :
    Census.ofSet set t = ⟨set.running, set.stopped, t⟩ := by
  rw [← running_ofSet set t, ← stopped_ofSet set t]
  rfl

/-- A decision is one about the running rows and the others, each in their order. -/
theorem judge_congr (hrunning : set'.running = set.running)
    (hstopped : set'.stopped = set.stopped) : e.judge set' = e.judge set := by
  unfold Evaluator.judge
  rw [Census.ofSet_eq, Census.ofSet_eq, hrunning, hstopped]

/-- Rows in another order fall under the same rule, which gives the same status and lists the same
instances. Where the running rows keep their order and the others theirs, nothing changes at all. -/
theorem judge_rearrange (e : Evaluator) (set : MatchSet) (σ : Equiv.Perm (Fin set.rows.length)) :
    (e.judge (set.rearrange σ)).rule = (e.judge set).rule ∧
      (e.judge (set.rearrange σ)).verdict.status = (e.judge set).verdict.status ∧
      (e.judge (set.rearrange σ)).verdict.instances.Perm (e.judge set).verdict.instances ∧
      (set.KeepsOrder σ → e.judge (set.rearrange σ) = e.judge set) := by
  have hjudge := Evaluator.decides_judge e set
  obtain ⟨d, hd, hrule, hinstances⟩ := hjudge.of_perm (set.rearrange_perm σ)
  rw [Evaluator.judge_eq_of_decides hd]
  refine ⟨hrule, ?_, hinstances, ?_⟩
  · rw [hd.status_eq, hjudge.status_eq, hrule]
  · intro horder
    rw [← Evaluator.judge_eq_of_decides hd]
    refine judge_congr (filter_rearrange ?_) (filter_rearrange ?_)
    · intro i j hij hi hj
      exact horder i j hij (iff_of_true (of_decide_eq_true hi) (of_decide_eq_true hj))
    · intro i j hij hi hj
      exact horder i j hij (iff_of_false (of_decide_eq_true hi) (of_decide_eq_true hj))

/-- One instance that runs and two that do not. -/
def oneOfThree : MatchSet :=
  ⟨[⟨"p", "Running", 5, "", "n", none⟩, ⟨"q", "Error", 0, "", "n", none⟩,
    ⟨"r", "Pending", 0, "", "n", none⟩]⟩

/-- The instance that runs changes places with the one behind it. -/
def runningLater : Equiv.Perm (Fin oneOfThree.rows.length) :=
  (Equiv.swap 0 1 : Equiv.Perm (Fin 3))

theorem judge_rearrange_oneOfThree :
    oneOfThree.KeepsOrder runningLater ∧
    oneOfThree.rearrange runningLater =
      ⟨[⟨"q", "Error", 0, "", "n", none⟩, ⟨"p", "Running", 5, "", "n", none⟩,
        ⟨"r", "Pending", 0, "", "n", none⟩]⟩ ∧
    Evaluator.judge {} (oneOfThree.rearrange runningLater) = Evaluator.judge {} oneOfThree := by
  have horder : oneOfThree.KeepsOrder runningLater := by decide
  exact ⟨horder, by decide, (judge_rearrange {} oneOfThree runningLater).2.2.2 horder⟩

end NodeHealth
