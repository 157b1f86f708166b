import NodeHealth.Proofs.CommandLine.Given
import NodeHealth.Proofs.Run.Failure
import NodeHealth.Proofs.Verdict.Report

/-!
# What a run leaves behind

Whatever the machine answers, a check is reported on one line that names its status, and the run
exits with that status. A failure is never taken for a healthy node: it makes the status unknown.

* `Check.labelled_verdict`: the verdict of a check begins with the label of its status.
* `runProgram_of_format`: the form of a report may be named on either side of the command.
* `runProgram_reports`: the report of a check or of a command line that is not understood, and when
  it says that the status is unknown.
-/

namespace NodeHealth

/-! ## Labels -/

theorem Evaluator.labelled_judge (e : Evaluator) (set : MatchSet) :
    (e.judge set).verdict.Labelled := Verdict.ofText_labelled _ _ _

theorem MountCheck.labelled_evaluate (check : MountCheck) (isLive : String → Bool)
    (table : String) : (check.evaluate isLive table).Labelled := by
  unfold evaluate
  simp only
  split
  · exact Verdict.ofText_labelled _ _ _
  · exact Verdict.ofText_labelled _ _ _

namespace Check

theorem labelled_of_run {m : Machine} {config : Config} {c : Check} {v : Verdict}
    (h : c.run m config = .ok v) : v.Labelled := by
  cases c with
  | mounts r =>
    obtain ⟨table, rfl⟩ := MountRequest.exists_table_of_run h
    exact MountCheck.labelled_evaluate _ _ _
  | pods policy r =>
    cases hids : (r.candidates m Invocation.hostsFile).isEmpty with
    | true =>
      have hrun : r.run m Invocation.hostsFile config policy = _ :=
        PodRequest.run_of_no_identity hids
      cases hrun.symm.trans h
      exact Verdict.ofText_labelled _ _ _
    | false =>
      obtain ⟨t, text, -, -, rfl⟩ := (PodRequest.run_eq_ok_iff hids).1 h
      exact Evaluator.labelled_judge _ _

/-- The verdict of a check begins with the label of its status, whether the check fails or not. -/
theorem labelled_verdict (c : Check) (m : Machine) (path : Option String) :
    (c.verdict m path).Labelled := by
  cases hrun : c.runConfigured m path with
  | error e =>
    rw [verdict_of_error hrun]
    exact Verdict.ofText_labelled _ _ _
  | ok v =>
    obtain ⟨config, -, hconfigured⟩ := exists_config_of_runConfigured hrun
    rw [verdict_of_ok hrun]
    exact labelled_of_run hconfigured

end Check

/-! ## Reports -/

theorem runProgram_of_check {m : Machine} {args : List String} {i : Invocation} {c : Check}
    (hargs : Invocation.ofArgs args = .ok i) (htask : i.task = .check c) :
    runProgram m args = .ofVerdict (c.verdict m i.config) i.format := by
  simp only [runProgram, hargs, Invocation.run, htask]

/-- A check is reported in the form that the command line names, on either side of the command, and
under the configuration that it names. -/
theorem runProgram_of_format (m : Machine) {front behind words : List String} {command : Command}
    {outer inner : Settings} {f : Format} {c : Check}
    (hfront : Invocation.Gives none {} front outer)
    (hbehind : Invocation.Gives (some command) {} behind inner)
    (hwords : Flag.format.Written f.name words) (houter : outer.format = none)
    (hinner : inner.format = none) (htask : Invocation.taskOf inner command = .check c) :
    let report := Output.ofVerdict (c.verdict m (inner.config <|> outer.config)) f
    runProgram m (front ++ words ++ command.name :: behind) = report ∧
      runProgram m (front ++ command.name :: (behind ++ words)) = report := by
  obtain ⟨hbefore, hafter⟩ := Invocation.ofArgs_format hfront hbehind hwords houter hinner
  exact ⟨runProgram_of_check hbefore htask, runProgram_of_check hafter htask⟩

/-- A command line that is not understood is reported as unknown, as text. A check is reported in
the form that was asked for, and as unknown exactly if a step of it fails or it has no identity to
look for. -/
theorem runProgram_reports (m : Machine) (args : List String) :
    (∀ e, Invocation.ofArgs args = .error (.usage e) →
      (runProgram m args).Reports .text .unknown) ∧
    (∀ i c, Invocation.ofArgs args = .ok i → i.task = .check c →
      ∃ s, (runProgram m args).Reports i.format s ∧
        (s = .unknown ↔ (∃ e, c.Fails m i.config e) ∨ c.HasNoIdentity m)) := by
  constructor
  · intro e hargs
    have hrun : runProgram m args = .ofVerdict (Verdict.unknown e.summary) .text := by
      simp only [runProgram, hargs]
    rw [hrun]
    exact Output.reports_ofVerdict (Verdict.ofText_labelled _ _ _) .text
  · intro i c hargs htask
    rw [runProgram_of_check hargs htask]
    exact ⟨_, Output.reports_ofVerdict (c.labelled_verdict m i.config) i.format,
      Check.status_verdict_eq_unknown_iff⟩

/-- A machine on which the program that lists pods is killed before it prints anything. -/
def killingMachine : Machine where
  hostname := none
  names := .silent
  read _ := .error (.os .notFound)
  isFile _ := false
  stdin := []
  execute _ _ _ := .finished (.signal 9) [] (Utf8.encode "out of\nmemory\n")
  isLive _ := false

/-- A restart check of `n1`, to be reported as JSON. -/
def killedInvocation : Invocation where
  task := .check (.pods .restartsOnly { identities := ["n1"] })
  config := none
  format := .json
  verbose := false

/-- This check, with the form of the report in front of the command and behind it. -/
def killedArgs : List (List String) :=
  [["-f", "json", "restarts", "--identity", "n1"],
    ["restarts", "--identity", "n1", "--format=json"]]

/-- What a program did not print before it was killed is not taken for an empty listing, which
would pass the check. -/
theorem runProgram_killingMachine :
    (∀ args ∈ killedArgs, Invocation.ofArgs args = .ok killedInvocation ∧
      (runProgram killingMachine args).Reports .json .unknown) ∧
    Invocation.ofArgs ["pods", "--warn"] = .error (.usage (.valueRequired .warn)) ∧
    (runProgram killingMachine ["pods", "--warn"]).Reports .text .unknown := by
  have hargs : ∀ args ∈ killedArgs, Invocation.ofArgs args = .ok killedInvocation := by
    decide +kernel
  have husage : Invocation.ofArgs ["pods", "--warn"] = .error (.usage (.valueRequired .warn)) := by
    decide +kernel
  have hloaded : Config.load killingMachine none = .ok {} := rfl
  have hlimit : KubectlConfig.limit {} = .ok (.ofMillis 30000) := by decide +kernel
  have hkilled : ∃ e, PodRequest.ListingFails { identities := ["n1"] } killingMachine {} e :=
    ⟨_, .program rfl hlimit (.killed 9 [] _)⟩
  obtain ⟨e, hkilled⟩ := hkilled
  have hfails : Check.Fails killingMachine none (.pods .restartsOnly { identities := ["n1"] }) e :=
    .listing hloaded (by decide +kernel) (by decide) hkilled
  refine ⟨?_, husage, (runProgram_reports killingMachine ["pods", "--warn"]).1 _ husage⟩
  intro args hmem
  obtain ⟨s, hreports, hunknown⟩ :=
    (runProgram_reports killingMachine args).2 killedInvocation _ (hargs args hmem) rfl
  obtain rfl : s = .unknown := hunknown.2 (.inl ⟨_, hfails⟩)
  exact ⟨hargs args hmem, hreports⟩

end NodeHealth
