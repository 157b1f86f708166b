import Mathlib.Logic.Relation
import NodeHealth.Proofs.Pod.DecisionTable

/-!
# How severe a decision is

The status of a decision, said of the rows alone. A set is complete if all its rows run and they are
as many as the policy expects. It is well if it is complete and within the warning threshold, and
its state is critical unless it is complete and within one of the thresholds; which of them is the
greater does not matter. All that is compared here is compared by these two conditions.

* `status_judge_eq_ok_iff`, `status_judge_eq_critical_iff`: the two conditions.
* `Worsens`: one change of the thresholds or the rows for the worse.
* `severity_worsened`: no number of such changes makes a decision milder.
* `policies_agree`: the policies differ only in what they make of the number of running rows.
-/

namespace NodeHealth

/-! ## The order of the statuses -/

namespace Status

theorem le_refl (s : Status) : s ≤ s := Nat.le_refl s.exitCode

theorem le_trans {a b c : Status} (hab : a ≤ b) (hbc : b ≤ c) : a ≤ c :=
  show a.exitCode ≤ c.exitCode from Nat.le_trans hab hbc

theorem le_critical_of_ne_unknown {s : Status} (h : s ≠ .unknown) : s ≤ .critical := by
  cases s with
  | ok | warning | critical => decide
  | unknown => exact absurd rfl h

theorem eq_critical_of_le {s : Status} (h : .critical ≤ s) (hne : s ≠ .unknown) :
    s = .critical := by
  cases s with
  | ok | warning => exact absurd h (by decide)
  | critical => rfl
  | unknown => exact absurd rfl hne

/-- Statuses that are known compare as they do with ok and critical. -/
theorem le_of_imp {s s' : Status} (hs : s ≠ .unknown) (hok : s' = .ok → s = .ok)
    (hcritical : s = .critical → s' = .critical) : s ≤ s' := by
  cases s with
  | ok => exact Nat.zero_le s'.exitCode
  | warning =>
    cases s' with
    | ok => cases hok rfl
    | warning | critical | unknown => decide
  | critical =>
    rw [hcritical rfl]
    exact le_refl _
  | unknown => exact absurd rfl hs

end Status

/-! ## The status of a set -/

/-- All rows run, and they are as many as the policy expects. -/
structure IsComplete (e : Evaluator) (set : MatchSet) : Prop where
  count : e.policy = .singleton → set.rows.length = 1
  runs : ∀ r ∈ set.rows, r.Runs

namespace MatchSet

variable {set : MatchSet} {limit : UInt32}

/-- No row restarted more often than `limit`. -/
def IsWithin (set : MatchSet) (limit : UInt32) : Prop := ∀ r ∈ set.rows, r.restarts ≤ limit

theorem running_eq_rows (h : ∀ r ∈ set.rows, r.Runs) : set.running = set.rows :=
  List.filter_eq_self.2 fun r hr => decide_eq_true (h r hr)

theorem isWithin_iff (h : ∀ r ∈ set.rows, r.Runs) :
    set.IsWithin limit ↔ set.restartedOver limit = [] := by
  rw [restartedOver_eq_nil_iff]
  exact forall₂_congr fun r hr => ⟨fun hle _ => hle, fun hle => hle (h r hr)⟩

theorem IsWithin.mono {limit' : UInt32} (h : set.IsWithin limit) (hle : limit ≤ limit') :
    set.IsWithin limit' :=
  fun r hr => UInt32.le_trans (h r hr) hle

/-- What is true of all rows stays so when one of them is replaced by another of which it is. -/
theorem forall_mem_replaced {P : Row → Prop} {before after : List Row} {r r' : Row}
    (h : ∀ x ∈ before ++ r' :: after, P x) (hr : P r' → P r) : ∀ x ∈ before ++ r :: after, P x := by
  rw [List.forall_mem_append, List.forall_mem_cons] at h ⊢
  exact ⟨h.1, hr h.2.1, h.2.2⟩

theorem IsWithin.of_replaced {before after : List Row} {r r' : Row}
    (h : IsWithin ⟨before ++ r' :: after⟩ limit) (hle : r.restarts ≤ r'.restarts) :
    IsWithin ⟨before ++ r :: after⟩ limit :=
  forall_mem_replaced h (UInt32.le_trans hle)

end MatchSet

theorem isComplete_iff {e : Evaluator} {set : MatchSet} :
    IsComplete e set ↔ (e.policy = .singleton → set.running.length = 1) ∧ set.stopped = [] := by
  rw [MatchSet.stopped_eq_nil_iff]
  constructor
  · intro h
    rw [MatchSet.running_eq_rows h.runs]
    exact ⟨h.count, h.runs⟩
  · rintro ⟨hcount, hruns⟩
    rw [MatchSet.running_eq_rows hruns] at hcount
    exact ⟨hcount, hruns⟩

section Judge

variable {e e' : Evaluator} {set set' : MatchSet} {d : Decision}

theorem Decides.isComplete (h : Decides e set d) (hmild : d.verdict.status ≠ .critical) :
    IsComplete e set := by
  cases h with
  | healthySingleton _ one noneStopped => exact isComplete_iff.2 ⟨fun _ => one, noneStopped⟩
  | quiet policy noneStopped =>
    refine isComplete_iff.2 ⟨?_, noneStopped⟩
    intro hsingleton
    rw [policy] at hsingleton
    cases hsingleton
  | warningRestarts one noneStopped => exact isComplete_iff.2 ⟨one, noneStopped⟩
  | noneRunning | multipleRunning | stopped | criticalRestarts => exact absurd rfl hmild

theorem status_judge_ne_unknown (e : Evaluator) (set : MatchSet) :
    (e.judge set).verdict.status ≠ .unknown :=
  (Evaluator.decides_judge e set).status_ne_unknown

/-- A set is well if it is complete and within the warning threshold. -/
theorem status_judge_eq_ok_iff : (e.judge set).verdict.status = .ok ↔
    IsComplete e set ∧ set.IsWithin e.thresholds.warn := by
  constructor
  · intro hok
    have h := Evaluator.decides_judge e set
    have hcomplete : IsComplete e set := h.isComplete (by rw [hok]; decide)
    exact ⟨hcomplete, (MatchSet.isWithin_iff hcomplete.runs).2 (h.none_over_warn hok).2⟩
  · rintro ⟨hcomplete, hwithin⟩
    obtain ⟨hcount, hstopped⟩ := isComplete_iff.1 hcomplete
    have hover := (MatchSet.isWithin_iff hcomplete.runs).1 hwithin
    cases hpolicy : e.policy with
    | singleton =>
      rw [Evaluator.judge_eq_of_decides
        (.healthySingleton hpolicy (hcount hpolicy) hstopped hover)]
    | restartsOnly => rw [Evaluator.judge_eq_of_decides (.quiet hpolicy hstopped hover)]

/-- The state of a set is critical unless the set is complete and within one of the thresholds. -/
theorem status_judge_eq_critical_iff : (e.judge set).verdict.status = .critical ↔
    ¬ (IsComplete e set ∧ (set.IsWithin e.thresholds.warn ∨ set.IsWithin e.thresholds.crit)) := by
  constructor
  · rintro hcritical ⟨hcomplete, hwithin⟩
    -- The set is not well, so it must be the critical threshold that it is within.
    have hwarn : ¬ set.IsWithin e.thresholds.warn := by
      intro hwithin
      rw [status_judge_eq_ok_iff.2 ⟨hcomplete, hwithin⟩] at hcritical
      cases hcritical
    have hcrit := hwithin.resolve_left hwarn
    obtain ⟨hcount, hstopped⟩ := isComplete_iff.1 hcomplete
    rw [MatchSet.isWithin_iff hcomplete.runs] at hwarn hcrit
    rw [Evaluator.judge_eq_of_decides (.warningRestarts hcount hstopped hwarn hcrit)]
      at hcritical
    cases hcritical
  · intro hill
    have h := Evaluator.decides_judge e set
    cases hstatus : (e.judge set).verdict.status with
    | ok =>
      obtain ⟨hcomplete, hwithin⟩ := status_judge_eq_ok_iff.1 hstatus
      exact absurd ⟨hcomplete, .inl hwithin⟩ hill
    | warning =>
      have hcomplete : IsComplete e set := h.isComplete (by rw [hstatus]; decide)
      have hwithin := (MatchSet.isWithin_iff hcomplete.runs).2 (h.none_over_crit hstatus).2
      exact absurd ⟨hcomplete, .inr hwithin⟩ hill
    | critical => rfl
    | unknown => exact absurd hstatus h.status_ne_unknown

/-- A decision is no milder than another if what would make it mild makes the other one so. -/
theorem status_judge_le (hcomplete : IsComplete e' set' → IsComplete e set)
    (hwarn : set'.IsWithin e'.thresholds.warn → set.IsWithin e.thresholds.warn)
    (hcrit : set'.IsWithin e'.thresholds.crit → set.IsWithin e.thresholds.crit) :
    (e.judge set).verdict.status ≤ (e'.judge set').verdict.status := by
  refine Status.le_of_imp (status_judge_ne_unknown e set) ?_ ?_
  · rw [status_judge_eq_ok_iff, status_judge_eq_ok_iff]
    exact And.imp hcomplete hwarn
  · rw [status_judge_eq_critical_iff, status_judge_eq_critical_iff]
    exact mt (And.imp hcomplete (Or.imp hwarn hcrit))

end Judge

/-! ## Changes for the worse -/

/-- The phase of one running row becomes another in which it does not run. -/
inductive Halts : Evaluator × MatchSet → Evaluator × MatchSet → Prop
  | intro {e : Evaluator} {before after : List Row} {r : Row} {phase : String} (runs : r.Runs)
      (halts : ¬ Row.Runs { r with phase }) :
      Halts (e, ⟨before ++ r :: after⟩) (e, ⟨before ++ { r with phase } :: after⟩)

/-- One change for the worse. Further rows are one where their number does not count. -/
inductive Worsens : Evaluator × MatchSet → Evaluator × MatchSet → Prop
  | lowered {e : Evaluator} {set : MatchSet} {t : Thresholds} (warn : t.warn ≤ e.thresholds.warn)
      (crit : t.crit ≤ e.thresholds.crit) : Worsens (e, set) ({ e with thresholds := t }, set)
  | restarted {e : Evaluator} {before after : List Row} {r : Row} {restarts : UInt32}
      (more : r.restarts ≤ restarts) :
      Worsens (e, ⟨before ++ r :: after⟩) (e, ⟨before ++ { r with restarts } :: after⟩)
  | halted {c c' : Evaluator × MatchSet} (halts : Halts c c') : Worsens c c'
  | joined {e : Evaluator} {rows rows' : List Row} (policy : e.policy = .restartsOnly)
      (further : rows.Sublist rows') : Worsens (e, ⟨rows⟩) (e, ⟨rows'⟩)

/-- The status that is decided about a set. -/
def severity (c : Evaluator × MatchSet) : Status := (c.1.judge c.2).verdict.status

variable {c c' : Evaluator × MatchSet}

theorem Halts.not_isComplete (h : Halts c c') : ¬ IsComplete c'.1 c'.2 := by
  cases h with
  | intro _ halts =>
    intro hcomplete
    exact halts (hcomplete.runs _ (List.mem_append_right _ List.mem_cons_self))

theorem Halts.severity_eq (h : Halts c c') : severity c' = .critical :=
  status_judge_eq_critical_iff.2 fun hmild => h.not_isComplete hmild.1

namespace Worsens

/-- What is complete after a change for the worse was complete before. -/
theorem isComplete (h : Worsens c c') (hcomplete : IsComplete c'.1 c'.2) :
    IsComplete c.1 c.2 := by
  cases h with
  | lowered => exact ⟨hcomplete.count, hcomplete.runs⟩
  | restarted =>
    refine ⟨?_, MatchSet.forall_mem_replaced hcomplete.runs id⟩
    simpa using hcomplete.count
  | halted halts => exact absurd hcomplete halts.not_isComplete
  | joined policy further =>
    refine ⟨?_, fun r hr => hcomplete.runs r (further.subset hr)⟩
    intro hsingleton
    rw [policy] at hsingleton
    cases hsingleton

/-- What is within a limit after a change for the worse was within it before. -/
theorem isWithin (h : Worsens c c') {limit : Thresholds → UInt32}
    (hlimit : ∀ t t', t'.warn ≤ t.warn → t'.crit ≤ t.crit → limit t' ≤ limit t)
    (hwithin : c'.2.IsWithin (limit c'.1.thresholds)) :
    c.2.IsWithin (limit c.1.thresholds) := by
  cases h with
  | lowered warn crit => exact hwithin.mono (hlimit _ _ warn crit)
  | restarted more => exact hwithin.of_replaced more
  | halted halts =>
    cases halts
    exact hwithin.of_replaced (UInt32.le_refl _)
  | joined _ further => exact fun r hr => hwithin r (further.subset hr)

theorem severity_le (h : Worsens c c') : severity c ≤ severity c' :=
  status_judge_le h.isComplete (h.isWithin fun _ _ hwarn _ => hwarn)
    (h.isWithin fun _ _ _ hcrit => hcrit)

end Worsens

theorem severity_le_of_worsened (h : Relation.ReflTransGen Worsens c c') :
    severity c ≤ severity c' := by
  induction h with
  | refl => exact Status.le_refl _
  | tail _ hstep ih => exact Status.le_trans ih hstep.severity_le

/-- No number of changes for the worse makes a decision milder. From the time on when a running row
halts, what is decided is critical. -/
theorem severity_worsened {c c' : Evaluator × MatchSet} (h : Relation.ReflTransGen Worsens c c') :
    severity c ≤ severity c' ∧ severity c' ≤ .critical ∧
      ∀ running, Halts running c → severity c' = .critical := by
  have hle := severity_le_of_worsened h
  have hknown : severity c' ≠ .unknown := status_judge_ne_unknown c'.1 c'.2
  refine ⟨hle, Status.le_critical_of_ne_unknown hknown, ?_⟩
  intro running hhalts
  rw [hhalts.severity_eq] at hle
  exact Status.eq_critical_of_le hle hknown

/-- Watches the restarts of any number of instances. -/
def restartWatch : Evaluator := { policy := .restartsOnly }

def oneInstance : MatchSet := ⟨[⟨"p", "Running", 2, "", "n", none⟩]⟩

def twoInstances : MatchSet :=
  ⟨[⟨"p", "Running", 2, "", "n", none⟩, ⟨"q", "Running", 0, "", "n", none⟩]⟩

def oneOfTwo : MatchSet :=
  ⟨[⟨"p", "Running", 2, "", "n", none⟩, ⟨"q", "Error", 0, "", "n", none⟩]⟩

theorem severity_restartWatch :
    severity (restartWatch, oneInstance) = .ok ∧
    severity ({ restartWatch with thresholds := ⟨1, 10⟩ }, twoInstances) = .warning ∧
    Relation.ReflTransGen Worsens (restartWatch, oneInstance)
      ({ restartWatch with thresholds := ⟨1, 10⟩ }, twoInstances) ∧
    severity (restartWatch, oneInstance) ≤
      severity ({ restartWatch with thresholds := ⟨1, 10⟩ }, twoInstances) ∧
    Halts (restartWatch, twoInstances) (restartWatch, oneOfTwo) ∧
    severity (restartWatch, oneOfTwo) = .critical := by
  have hjoined : Worsens (restartWatch, oneInstance) (restartWatch, twoInstances) :=
    .joined rfl (List.sublist_append_left _ _)
  have hlowered : Worsens (restartWatch, twoInstances)
      ({ restartWatch with thresholds := ⟨1, 10⟩ }, twoInstances) :=
    .lowered (by decide) (by decide)
  have hrun := Relation.ReflTransGen.tail (.single hjoined) hlowered
  have hhalts : Halts (restartWatch, twoInstances) (restartWatch, oneOfTwo) :=
    @Halts.intro restartWatch [⟨"p", "Running", 2, "", "n", none⟩] []
      ⟨"q", "Running", 0, "", "n", none⟩ "Error" (by decide) (by decide)
  refine ⟨by decide, by decide, hrun, (severity_worsened hrun).1, hhalts, ?_⟩
  exact (severity_worsened .refl).2.2 _ hhalts

/-! ## The two policies -/

section Policies

variable {t : Thresholds} {subject : String} {set : MatchSet}

/-- With one running row, what is decided without regard to their number is decided with regard to
it, but for the name of the rule that finds the set well. -/
theorem Decides.singleton {d : Decision} (h : Decides ⟨.restartsOnly, t, subject⟩ set d)
    (hone : set.running.length = 1) :
    ∃ d', Decides ⟨.singleton, t, subject⟩ set d' ∧ d'.verdict = d.verdict := by
  cases h with
  | healthySingleton policy | noneRunning policy | multipleRunning policy => cases policy
  | quiet _ noneStopped noneOver => exact ⟨_, .healthySingleton rfl hone noneStopped noneOver, rfl⟩
  | stopped _ someStopped => exact ⟨_, .stopped (fun _ => hone) someStopped, rfl⟩
  | criticalRestarts _ noneStopped someOver someCritical =>
    exact ⟨_, .criticalRestarts (fun _ => hone) noneStopped someOver someCritical, rfl⟩
  | warningRestarts _ noneStopped someOver noneCritical =>
    exact ⟨_, .warningRestarts (fun _ => hone) noneStopped someOver noneCritical, rfl⟩

/-- The policies give the same verdict about a set in which one row runs. About any other, the one
that does not count the running rows is no more severe. -/
theorem policies_agree (t : Thresholds) (subject : String) (set : MatchSet) :
    let single : Evaluator := ⟨.singleton, t, subject⟩
    let restarts : Evaluator := ⟨.restartsOnly, t, subject⟩
    (set.running.length = 1 → single.evaluate set = restarts.evaluate set) ∧
      (restarts.evaluate set).status ≤ (single.evaluate set).status ∧
      (single.evaluate set).status ≤ .critical := by
  intro single restarts
  refine ⟨?_, ?_, Status.le_critical_of_ne_unknown (status_judge_ne_unknown single set)⟩
  · intro hone
    obtain ⟨d, hd, hverdict⟩ := (Evaluator.decides_judge restarts set).singleton hone
    rw [Evaluator.evaluate, Evaluator.judge_eq_of_decides hd, hverdict, Evaluator.evaluate]
  · refine status_judge_le ?_ id id
    intro hcomplete
    exact ⟨nofun, hcomplete.runs⟩

theorem policies_agree_oneOfTwo :
    oneOfTwo.running.length = 1 ∧
    Evaluator.evaluate ⟨.singleton, ⟨10, 3⟩, "s"⟩ oneOfTwo =
      Evaluator.evaluate ⟨.restartsOnly, ⟨10, 3⟩, "s"⟩ oneOfTwo := by
  have hone : oneOfTwo.running.length = 1 := by decide
  exact ⟨hone, (policies_agree ⟨10, 3⟩ "s" oneOfTwo).1 hone⟩

end Policies

end NodeHealth
