import NodeHealth.Pod.Evaluator

/-!
# The decision table

What an evaluator decides about a set of rows, said without rules that are tried in turn: `Decides`
has one case for each condition under which a set is well or ill, and each case gives the whole
decision. A set that is not well has a row to show for it, so no case is missing.

* `exists_decides`: every set falls under a case.
* `Evaluator.judge_eq_of_decides`: the first rule that fires gives the decision of the case.
* `Evaluator.rule_name_eq_iff`: the name under which each case is reported.
* `Evaluator.judge_iff_decides`: the evaluator implements the table; it never falls back, and its
  verdict is never unknown.
-/

namespace NodeHealth

/-! ## Rows -/

/-- The phase is `running`, whatever the case of its letters. -/
def Row.Runs (r : Row) : Prop := r.phase.toList.map Char.toLower = "running".toList

instance (r : Row) : Decidable r.Runs := inferInstanceAs (Decidable (_ = _))

theorem Row.isRunning_eq (r : Row) : r.isRunning = decide r.Runs := by
  have hfold : Text.fold "running" = "running".toList := by decide
  rw [Bool.eq_iff_iff, isRunning, Text.sameFolded_iff, hfold, decide_eq_true_iff]
  rfl

namespace MatchSet

variable (set : MatchSet)

def running : List Row := set.rows.filter fun r => r.Runs

def stopped : List Row := set.rows.filter fun r => ¬ r.Runs

/-- The running rows that restarted more often than `limit`. -/
def restartedOver (limit : UInt32) : List Row := set.running.filter fun r => limit < r.restarts

@[simp] theorem running_ofSet (t : Thresholds) : (Census.ofSet set t).running = set.running :=
  List.filter_congr fun r _ => r.isRunning_eq

@[simp] theorem stopped_ofSet (t : Thresholds) : (Census.ofSet set t).stopped = set.stopped :=
  List.filter_congr fun r _ => by rw [r.isRunning_eq, decide_not]

@[simp] theorem thresholds_ofSet (t : Thresholds) : (Census.ofSet set t).thresholds = t := rfl

@[simp] theorem restartedOver_ofSet (t : Thresholds) (limit : UInt32) :
    (Census.ofSet set t).restartedOver limit = set.restartedOver limit := by
  rw [Census.restartedOver, running_ofSet, restartedOver]

variable {set}

theorem stopped_eq_nil_iff : set.stopped = [] ↔ ∀ r ∈ set.rows, r.Runs := by
  simp [stopped]

theorem restartedOver_eq_nil_iff {limit : UInt32} :
    set.restartedOver limit = [] ↔ ∀ r ∈ set.rows, r.Runs → r.restarts ≤ limit := by
  have hnil : set.restartedOver limit = [] ↔ ∀ r ∈ set.running, ¬ limit < r.restarts := by
    simp [restartedOver]
  have hmem : ∀ r, r ∈ set.running ↔ r ∈ set.rows ∧ r.Runs := by simp [running]
  simp only [hnil, hmem, UInt32.not_lt, and_imp]

end MatchSet

/-! ## The table -/

/-- The labels of rows as a message lists them. -/
def Row.listed (rows : List Row) : String := "[" ++ ", ".intercalate (rows.map Row.label) ++ "]"

/-- What a message says of the rows that restarted more often than `limit`. -/
def Row.restartMessage (subject : String) (limit : UInt32) (rows : List Row) : String :=
  subject ++ " restarted more than " ++ toString limit.toNat ++
    " times. Restarted instances are " ++ listed rows ++ ". Check irodsfs mounts."

open Row in
/-- What is decided about a set of rows. Under the policy for a single instance the number of
running rows counts before all else that is wrong. -/
inductive Decides (e : Evaluator) (set : MatchSet) : Decision → Prop
  | healthySingleton (policy : e.policy = .singleton) (one : set.running.length = 1)
      (noneStopped : set.stopped = []) (noneOver : set.restartedOver e.thresholds.warn = []) :
      Decides e set ⟨.healthySingleton, .ok, "OK - " ++ e.subject ++ " is running well.", []⟩
  | quiet (policy : e.policy = .restartsOnly) (noneStopped : set.stopped = [])
      (noneOver : set.restartedOver e.thresholds.warn = []) :
      Decides e set ⟨.quiet, .ok, "OK - " ++ e.subject ++ " is running well.", []⟩
  | noneRunning (policy : e.policy = .singleton) (none : set.running = []) :
      Decides e set ⟨.noneRunning, .critical,
        "CRITICAL - " ++ e.subject ++ " is not running. No instance running.", []⟩
  | multipleRunning (policy : e.policy = .singleton) (many : 1 < set.running.length) :
      Decides e set ⟨.multipleRunning, .critical,
        "CRITICAL - " ++ e.subject ++ " is running more than 1 instance. Running instances are " ++
          listed set.running ++ ".", set.running.map Row.label⟩
  | stopped (one : e.policy = .singleton → set.running.length = 1)
      (someStopped : set.stopped ≠ []) :
      Decides e set ⟨.stopped, .critical,
        "CRITICAL - " ++ e.subject ++ " is not running. Failed instances are " ++
          listed set.stopped ++ ".", set.stopped.map Row.label⟩
  | criticalRestarts (one : e.policy = .singleton → set.running.length = 1)
      (noneStopped : set.stopped = []) (someOver : set.restartedOver e.thresholds.warn ≠ [])
      (someCritical : set.restartedOver e.thresholds.crit ≠ []) :
      Decides e set ⟨.criticalRestarts, .critical,
        "CRITICAL - " ++
          restartMessage e.subject e.thresholds.crit (set.restartedOver e.thresholds.crit),
        (set.restartedOver e.thresholds.crit).map Row.label⟩
  | warningRestarts (one : e.policy = .singleton → set.running.length = 1)
      (noneStopped : set.stopped = []) (someOver : set.restartedOver e.thresholds.warn ≠ [])
      (noneCritical : set.restartedOver e.thresholds.crit = []) :
      Decides e set ⟨.warningRestarts, .warning,
        "WARNING - " ++
          restartMessage e.subject e.thresholds.warn (set.restartedOver e.thresholds.warn),
        (set.restartedOver e.thresholds.warn).map Row.label⟩

/-- When a case of the table is reported, by the name of its rule. -/
inductive ReportedAs (e : Evaluator) (set : MatchSet) : String → Prop
  | healthySingleton (policy : e.policy = .singleton) (one : set.running.length = 1)
      (noneStopped : set.stopped = []) (noneOver : set.restartedOver e.thresholds.warn = []) :
      ReportedAs e set "healthy-singleton"
  | quiet (policy : e.policy = .restartsOnly) (noneStopped : set.stopped = [])
      (noneOver : set.restartedOver e.thresholds.warn = []) : ReportedAs e set "quiet"
  | noneRunning (policy : e.policy = .singleton) (none : set.running = []) :
      ReportedAs e set "none-running"
  | multipleRunning (policy : e.policy = .singleton) (many : 1 < set.running.length) :
      ReportedAs e set "multiple-running"
  | stopped (one : e.policy = .singleton → set.running.length = 1)
      (someStopped : set.stopped ≠ []) : ReportedAs e set "stopped"
  | criticalRestarts (one : e.policy = .singleton → set.running.length = 1)
      (noneStopped : set.stopped = []) (someOver : set.restartedOver e.thresholds.warn ≠ [])
      (someCritical : set.restartedOver e.thresholds.crit ≠ []) :
      ReportedAs e set "critical-restarts"
  | warningRestarts (one : e.policy = .singleton → set.running.length = 1)
      (noneStopped : set.stopped = []) (someOver : set.restartedOver e.thresholds.warn ≠ [])
      (noneCritical : set.restartedOver e.thresholds.crit = []) :
      ReportedAs e set "warning-restarts"

namespace Decides

variable {e : Evaluator} {set : MatchSet} {d : Decision}

theorem reportedAs (h : Decides e set d) : ReportedAs e set d.rule.name := by
  cases h with
  | healthySingleton policy one noneStopped noneOver =>
    exact .healthySingleton policy one noneStopped noneOver
  | quiet policy noneStopped noneOver => exact .quiet policy noneStopped noneOver
  | noneRunning policy none => exact .noneRunning policy none
  | multipleRunning policy many => exact .multipleRunning policy many
  | stopped one someStopped => exact .stopped one someStopped
  | criticalRestarts one noneStopped someOver someCritical =>
    exact .criticalRestarts one noneStopped someOver someCritical
  | warningRestarts one noneStopped someOver noneCritical =>
    exact .warningRestarts one noneStopped someOver noneCritical

theorem rule_ne_fallback (h : Decides e set d) : d.rule ≠ .fallback := by
  cases h <;> exact nofun

theorem status_ne_unknown (h : Decides e set d) : d.verdict.status ≠ .unknown := by
  cases h <;> exact nofun

theorem none_over_warn (h : Decides e set d) (hok : d.verdict.status = .ok) :
    set.stopped = [] ∧ set.restartedOver e.thresholds.warn = [] := by
  cases h with
  | healthySingleton _ _ noneStopped noneOver => exact ⟨noneStopped, noneOver⟩
  | quiet _ noneStopped noneOver => exact ⟨noneStopped, noneOver⟩
  | noneRunning | multipleRunning | stopped | criticalRestarts | warningRestarts => cases hok

theorem none_over_crit (h : Decides e set d) (hwarning : d.verdict.status = .warning) :
    set.stopped = [] ∧ set.restartedOver e.thresholds.crit = [] := by
  cases h with
  | warningRestarts _ noneStopped _ noneCritical => exact ⟨noneStopped, noneCritical⟩
  | healthySingleton | quiet | noneRunning | multipleRunning | stopped | criticalRestarts =>
    cases hwarning

/-- If the thresholds are in order, a mild verdict is true of every row. -/
theorem calm (h : Decides e set d) (horder : e.thresholds.warn ≤ e.thresholds.crit)
    (hmild : d.verdict.status = .ok ∨ d.verdict.status = .warning) {r : Row} (hr : r ∈ set.rows) :
    r.Runs ∧ r.restarts ≤ e.thresholds.crit ∧
      (d.verdict.status = .ok → r.restarts ≤ e.thresholds.warn) := by
  rcases hmild with hok | hwarning
  · obtain ⟨hstopped, hover⟩ := h.none_over_warn hok
    have hruns := MatchSet.stopped_eq_nil_iff.1 hstopped r hr
    have hle := MatchSet.restartedOver_eq_nil_iff.1 hover r hr hruns
    exact ⟨hruns, UInt32.le_trans hle horder, fun _ => hle⟩
  · obtain ⟨hstopped, hover⟩ := h.none_over_crit hwarning
    have hruns := MatchSet.stopped_eq_nil_iff.1 hstopped r hr
    refine ⟨hruns, MatchSet.restartedOver_eq_nil_iff.1 hover r hr hruns, ?_⟩
    intro hok
    rw [hwarning] at hok
    cases hok

end Decides

/-- Every set falls under a case of the table: one that is not well has too few or too many running
rows, a stopped row or a row over a threshold. -/
theorem exists_decides (e : Evaluator) (set : MatchSet) : ∃ d, Decides e set d := by
  by_cases hone : e.policy = .singleton → set.running.length = 1
  · by_cases hstopped : set.stopped = []
    · by_cases hwarn : set.restartedOver e.thresholds.warn = []
      · cases hpolicy : e.policy with
        | singleton => exact ⟨_, .healthySingleton hpolicy (hone hpolicy) hstopped hwarn⟩
        | restartsOnly => exact ⟨_, .quiet hpolicy hstopped hwarn⟩
      · by_cases hcrit : set.restartedOver e.thresholds.crit = []
        · exact ⟨_, .warningRestarts hone hstopped hwarn hcrit⟩
        · exact ⟨_, .criticalRestarts hone hstopped hwarn hcrit⟩
    · exact ⟨_, .stopped hone hstopped⟩
  · obtain ⟨hpolicy, hcount⟩ := Classical.not_imp.1 hone
    cases hrunning : set.running with
    | nil => exact ⟨_, .noneRunning hpolicy hrunning⟩
    | cons r rows =>
      have hmany : 1 < set.running.length := by
        rw [hrunning, List.length_cons] at hcount ⊢
        omega
      exact ⟨_, .multipleRunning hpolicy hmany⟩

/-! ## The first rule that fires -/

namespace Evaluator

section FirstFiring

variable {rule : Rule} {rules : List Rule} {c : Census} {labels : List String}

theorem firstFiring_of_silent (h : rule.fires? c = none) :
    firstFiring (rule :: rules) c = firstFiring rules c := by
  unfold firstFiring
  rw [List.findSome?_cons, h, Option.map_none]

theorem firstFiring_of_fires (h : rule.fires? c = some labels) :
    firstFiring (rule :: rules) c = (rule, labels) := by
  unfold firstFiring
  rw [List.findSome?_cons, h, Option.map_some]
  rfl

end FirstFiring

variable {e : Evaluator} {set : MatchSet} {d : Decision}

/-- Both policies end in the same rules, which decide about a set that has the right number of
running rows and is not well. -/
theorem firstFiring_of_ill (hone : e.policy = .singleton → set.running.length = 1)
    (hill : set.stopped = [] → set.restartedOver e.thresholds.warn ≠ []) :
    firstFiring e.policy.rules (.ofSet set e.thresholds) =
      firstFiring [.stopped, .criticalRestarts, .warningRestarts, .fallback]
        (.ofSet set e.thresholds) := by
  cases hpolicy : e.policy with
  | singleton =>
    have hcount := hone hpolicy
    have hrunning : set.running ≠ [] := List.ne_nil_of_length_eq_add_one hcount
    unfold Policy.rules
    rw [firstFiring_of_silent, firstFiring_of_silent, firstFiring_of_silent]
    · simp [Rule.fires?, hcount]
    · simp [Rule.fires?, hrunning]
    · simpa [Rule.fires?, hcount] using hill
  | restartsOnly =>
    unfold Policy.rules
    rw [firstFiring_of_silent]
    simpa [Rule.fires?] using hill

/-- The rule of a case is the first that fires, and lists what the case lists. -/
theorem firstFiring_of_decides (h : Decides e set d) :
    firstFiring e.policy.rules (.ofSet set e.thresholds) = (d.rule, d.verdict.instances) := by
  cases h with
  | healthySingleton policy one noneStopped noneOver =>
    rw [policy]
    refine firstFiring_of_fires ?_
    simp [Rule.fires?, one, noneStopped, noneOver]
  | quiet policy noneStopped noneOver =>
    rw [policy]
    refine firstFiring_of_fires ?_
    simp [Rule.fires?, noneStopped, noneOver]
  | noneRunning policy none =>
    rw [policy]
    unfold Policy.rules
    rw [firstFiring_of_silent (by simp [Rule.fires?, none])]
    refine firstFiring_of_fires ?_
    simp [Rule.fires?, none]
  | multipleRunning policy many =>
    have hrunning : set.running ≠ [] := List.ne_nil_of_length_pos (Nat.zero_lt_of_lt many)
    have hcount : set.running.length ≠ 1 := Nat.ne_of_gt many
    rw [policy]
    unfold Policy.rules
    rw [firstFiring_of_silent (by simp [Rule.fires?, hcount]),
      firstFiring_of_silent (by simp [Rule.fires?, hrunning])]
    refine firstFiring_of_fires ?_
    simp [Rule.fires?, many]
  | stopped one someStopped =>
    rw [firstFiring_of_ill one fun hnone => absurd hnone someStopped]
    refine firstFiring_of_fires ?_
    simp [Rule.fires?, Rule.labelsOfAny, someStopped]
  | criticalRestarts one noneStopped someOver someCritical =>
    rw [firstFiring_of_ill one fun _ => someOver,
      firstFiring_of_silent (by simp [Rule.fires?, Rule.labelsOfAny, noneStopped])]
    refine firstFiring_of_fires ?_
    simp [Rule.fires?, Rule.labelsOfAny, someCritical]
  | warningRestarts one noneStopped someOver noneCritical =>
    rw [firstFiring_of_ill one fun _ => someOver,
      firstFiring_of_silent (by simp [Rule.fires?, Rule.labelsOfAny, noneStopped]),
      firstFiring_of_silent (by simp [Rule.fires?, Rule.labelsOfAny, noneCritical])]
    refine firstFiring_of_fires ?_
    simp [Rule.fires?, Rule.labelsOfAny, someOver]

/-- The verdict of a case is in the words of its rule. -/
theorem verdict_of_decides (h : Decides e set d) :
    d.verdict = .ofText d.rule.status (d.rule.text e.subject e.thresholds d.verdict.instances)
      d.verdict.instances := by
  cases h <;> simp [Verdict.ofText, Rule.status, Rule.text, Rule.listing, Rule.restartText,
    Status.label, Row.listed, Row.restartMessage, String.append_assoc]

theorem judge_eq_of_decides (h : Decides e set d) : e.judge set = d := by
  unfold judge
  rw [firstFiring_of_decides h]
  show Decision.mk d.rule _ = d
  rw [← verdict_of_decides h]

theorem decides_judge (e : Evaluator) (set : MatchSet) : Decides e set (e.judge set) := by
  obtain ⟨d, h⟩ := exists_decides e set
  rwa [judge_eq_of_decides h]

/-- A case that is reported under a name has a decision whose rule has this name. -/
theorem exists_decides_of_reportedAs {name : String} (h : ReportedAs e set name) :
    ∃ d, Decides e set d ∧ d.rule.name = name := by
  cases h with
  | healthySingleton policy one noneStopped noneOver =>
    exact ⟨_, .healthySingleton policy one noneStopped noneOver, rfl⟩
  | quiet policy noneStopped noneOver => exact ⟨_, .quiet policy noneStopped noneOver, rfl⟩
  | noneRunning policy none => exact ⟨_, .noneRunning policy none, rfl⟩
  | multipleRunning policy many => exact ⟨_, .multipleRunning policy many, rfl⟩
  | stopped one someStopped => exact ⟨_, .stopped one someStopped, rfl⟩
  | criticalRestarts one noneStopped someOver someCritical =>
    exact ⟨_, .criticalRestarts one noneStopped someOver someCritical, rfl⟩
  | warningRestarts one noneStopped someOver noneCritical =>
    exact ⟨_, .warningRestarts one noneStopped someOver noneCritical, rfl⟩

theorem rule_name_eq_iff {name : String} :
    (e.judge set).rule.name = name ↔ ReportedAs e set name := by
  constructor
  · rintro rfl
    exact (decides_judge e set).reportedAs
  · intro h
    obtain ⟨d, hd, hname⟩ := exists_decides_of_reportedAs h
    rw [judge_eq_of_decides hd, hname]

/-- The first rule that fires implements the table, and its name says which case of the table it
is. It is never the fallback, and the verdict is never unknown. -/
theorem judge_iff_decides (e : Evaluator) (set : MatchSet) :
    (∀ d, e.judge set = d ↔ Decides e set d) ∧
      (∀ name, (e.judge set).rule.name = name ↔ ReportedAs e set name) ∧
      (e.judge set).rule ≠ .fallback ∧ (e.judge set).verdict.status ≠ .unknown := by
  have hjudge := decides_judge e set
  refine ⟨?_, fun name => rule_name_eq_iff, hjudge.rule_ne_fallback, hjudge.status_ne_unknown⟩
  intro d
  refine ⟨?_, judge_eq_of_decides⟩
  rintro rfl
  exact hjudge

-- Thresholds out of order let a row pass that is over the critical one.
example :
    (judge { thresholds := ⟨10, 3⟩ } ⟨[⟨"p", "Running", 5, "", "n", none⟩]⟩).rule =
      .healthySingleton := by decide

end Evaluator

end NodeHealth
