import NodeHealth.Proofs.Run.Listing

/-!
# What the verdict of a pod check promises

The evaluator alone may pass a row over the critical threshold when the thresholds are inverted. A
run does not: it merges the given thresholds with those of the configuration and refuses the result
before it reads anything.

* `PodRequest.mem_judged_iff`: the rows that a check is about.
* `PodRequest.run_masks_no_critical`: a verdict that is no alarm is true of every row of the
  listing that the check is about.
-/

namespace NodeHealth

namespace PodRequest

/-! ## The rows that are judged -/

/-- A check is about the rows that name the node and, if it is limited to restarts, have a name
that begins as configured. -/
structure Concerns (policy : Policy) (check : CheckConfig) (ids : Identities) (row : Row) :
    Prop where
  identity : row.ip ∈ ids.entries ∨ row.node ∈ ids.entries
  name : policy = .restartsOnly → check.nameStart.toList <+: row.name.toList

theorem mem_select_iff {rows : List Row} {ids : Identities} {row : Row} :
    row ∈ (MatchSet.select rows ids).rows ↔
      row ∈ rows ∧ (row.ip ∈ ids.entries ∨ row.node ∈ ids.entries) := by
  rw [MatchSet.select, List.mem_filter, Row.belongsTo_iff]

theorem mem_inScope_iff {policy : Policy} {check : CheckConfig} {set : MatchSet} {row : Row} :
    row ∈ (inScope policy check set).rows ↔
      row ∈ set.rows ∧ (policy = .restartsOnly → check.nameStart.toList <+: row.name.toList) := by
  cases policy <;> simp [inScope, MatchSet.named]

theorem mem_judged_iff {policy : Policy} {check : CheckConfig} {ids : Identities}
    {rows : List Row} {row : Row} :
    row ∈ (inScope policy check (MatchSet.select rows ids)).rows ↔
      row ∈ rows ∧ Concerns policy check ids row := by
  rw [mem_inScope_iff, mem_select_iff, and_assoc]
  exact and_congr_right fun _ => ⟨fun h => ⟨h.1, h.2⟩, fun h => ⟨h.identity, h.name⟩⟩

theorem judge_calm {config : Config} {policy : Policy} {t : Thresholds} {ids : Identities}
    {text : String} (horder : t.warn ≤ t.crit)
    (hmild : (judge config policy t ids text).verdict.status = .ok ∨
      (judge config policy t ids text).verdict.status = .warning) {row : Row}
    (hrow : row ∈ Row.ofListing text) (hconcerns : Concerns policy config.check ids row) :
    row.Runs ∧ row.restarts ≤ t.crit ∧
      ((judge config policy t ids text).verdict.status = .ok → row.restarts ≤ t.warn) := by
  have hdecides := Evaluator.decides_judge
    { policy, thresholds := t, subject := config.check.subject }
    (inScope policy config.check (MatchSet.select (Row.ofListing text) ids))
  exact hdecides.calm horder hmild (mem_judged_iff.2 ⟨hrow, hconcerns⟩)

/-! ## Runs -/

/-- A verdict that is no alarm holds for every row that the check is about, under the thresholds
that the run merged. Inverted thresholds give no verdict at all, and thresholds in order give one
for every listing. -/
theorem run_masks_no_critical (r : PodRequest) (m : Machine) (hostsFile : String) (config : Config)
    (policy : Policy) :
    let warn := r.warn.getD config.thresholds.warn
    let crit := r.crit.getD config.thresholds.crit
    let ids := r.candidates m hostsFile
    (∀ v, r.run m hostsFile config policy = .ok v → v.status = .ok ∨ v.status = .warning →
      ∃ text, r.Lists m config.kubectl text ∧
        ∀ row ∈ Row.ofListing text, Concerns policy config.check ids row →
          row.Runs ∧ row.restarts ≤ crit ∧ (v.status = .ok → row.restarts ≤ warn)) ∧
    (ids.entries ≠ [] → crit < warn →
      r.run m hostsFile config policy = .error (.invertedThresholds ⟨warn, crit⟩)) ∧
    (ids.entries ≠ [] → warn ≤ crit → ∀ text, r.Lists m config.kubectl text →
      ∃ v, r.run m hostsFile config policy = .ok v) := by
  intro warn crit ids
  have hsome : ids.entries ≠ [] → ids.isEmpty = false := Identities.isEmpty_eq_false_iff.2
  refine ⟨?_, ?_, ?_⟩
  · intro v hrun hmild
    cases hids : ids.isEmpty with
    | true =>
      rw [run_of_no_identity hids, Except.ok.injEq] at hrun
      subst hrun
      rcases hmild with hok | hwarning
      · cases hok
      · cases hwarning
    | false =>
      obtain ⟨t, text, ht, htext, rfl⟩ := (run_eq_ok_iff hids).1 hrun
      obtain ⟨rfl, horder⟩ := thresholds_eq_ok_iff.1 ht
      refine ⟨text, listing_eq_ok_iff.1 htext, ?_⟩
      intro row hrow hconcerns
      exact judge_calm horder hmild hrow hconcerns
  · intro hids hinverted
    exact run_inverted (hsome hids) rfl hinverted
  · intro hids horder text htext
    have ht : r.thresholds config.thresholds = .ok ⟨warn, crit⟩ :=
      thresholds_eq_ok_iff.2 ⟨rfl, horder⟩
    exact ⟨_, (run_eq_ok_iff (hsome hids)).2 ⟨_, text, ht, listing_eq_ok_iff.2 htext, rfl⟩⟩

/-- A listing of two pods, of which one has another name than the driver's. -/
def sampleText : String :=
  "irods-csi-driver-node-a 3/3 Running 4 1d 10.0.0.1 n1 <none> <none>\n" ++
    "b 3/3 Running 99 1d 10.0.0.2 n1 <none> <none>\n"

/-- A machine that is called `n1`, on which these pods are listed. -/
def sampleMachine : Machine where
  hostname := some "n1"
  names := .silent
  read _ := .error (.os .notFound)
  isFile _ := false
  stdin := []
  execute _ _ _ := .finished (.code 0) (Utf8.encode sampleText) []
  isLive _ := false

theorem lists_sampleMachine {r : PodRequest} (live : r.input = none) :
    r.Lists sampleMachine {} sampleText := by
  have hlimit : ({} : KubectlConfig).limit = .ok (.ofMillis 30000) := by decide +kernel
  have hlossy : Utf8.lossy (Utf8.encode sampleText) = sampleText := by decide +kernel
  rw [← hlossy]
  exact .printed live hlimit rfl

/-- What is said of `sampleMachine`. -/
def sampleVerdict : Verdict :=
  .ofText .warning ("iRODS CSI Driver restarted more than 3 times. Restarted instances are " ++
    "[irods-csi-driver-node-a(n1)]. Check irodsfs mounts.") ["irods-csi-driver-node-a(n1)"]

theorem run_sampleMachine :
    run {} sampleMachine "hosts" {} .restartsOnly = .ok sampleVerdict ∧
    (∃ text, Lists {} sampleMachine {} text ∧
      ∀ row ∈ Row.ofListing text,
        Concerns .restartsOnly {} (candidates {} sampleMachine "hosts") row →
        row.Runs ∧ row.restarts ≤ 10 ∧ (sampleVerdict.status = .ok → row.restarts ≤ 3)) ∧
    run { warn := some 11 } sampleMachine "hosts" {} .restartsOnly =
      .error (.invertedThresholds ⟨11, 10⟩) ∧
    ∃ v, run { warn := some 10 } sampleMachine "hosts" {} .restartsOnly = .ok v := by
  have hrun : run {} sampleMachine "hosts" {} .restartsOnly = .ok sampleVerdict := by
    decide +kernel
  have hids : (candidates { warn := some 11 } sampleMachine "hosts").entries ≠ [] := by
    decide +kernel
  refine ⟨hrun, ?_, ?_, ?_⟩
  · exact (run_masks_no_critical {} sampleMachine "hosts" {} .restartsOnly).1 _ hrun (.inr rfl)
  · exact (run_masks_no_critical { warn := some 11 } sampleMachine "hosts" {} .restartsOnly).2.1
      hids (by decide)
  · exact (run_masks_no_critical { warn := some 10 } sampleMachine "hosts" {} .restartsOnly).2.2
      hids (by decide) sampleText (lists_sampleMachine rfl)

end PodRequest

end NodeHealth
