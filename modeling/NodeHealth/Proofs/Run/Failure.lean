import NodeHealth.Program
import NodeHealth.Proofs.Config.Judgement
import NodeHealth.Proofs.Pod.DecisionTable
import NodeHealth.Proofs.Run.Check

/-!
# When a check fails

Every step of a check that asks the outside world for something can fail, and the first that does
ends the check. The relations of this module say in terms of the answers of the machine when a step
fails, and with which error; a step that does not fail gives a result.

* `Machine.readText_eq_error_iff`, `Machine.captured_eq_error_iff`: reading a file, and captured
  output.
* `Config.load_eq_error_iff`: reading, understanding and judging the configuration.
* `KubectlConfig.list_eq_error_iff`: running the program that lists pods.
* `Check.runConfigured_eq_error_iff`: the whole check.
* `Check.status_verdict_eq_unknown_iff`: a check is unknown if it fails or has no identity to look
  for, and in no other case.
-/

namespace NodeHealth

theorem mapError_eq_error_iff {ε ε' α : Type} {x : Except ε α} {f : ε → ε'} {e : ε'} :
    x.mapError f = .error e ↔ ∃ cause, x = .error cause ∧ f cause = e := by
  cases x <;> simp [Except.mapError]

/-! ## Reading -/

namespace Machine

/-- The text of a file cannot be had: it cannot be read, or what is read is no text. -/
inductive Unreadable (m : Machine) (path : String) : ReadError → Prop
  | refused {cause : ReadError} (answer : m.read path = .error cause) : Unreadable m path cause
  | malformed {bytes : Bytes} (answer : m.read path = .ok bytes)
      (notUtf8 : Utf8.decode? bytes = none) : Unreadable m path .notUtf8

/-- Captured output cannot be had. -/
inductive CaptureFails (m : Machine) (path : String) : RunError → Prop
  | standardInput (dash : Path.isDash path = true) (notUtf8 : Utf8.decode? m.stdin = none) :
      CaptureFails m path (.standardInput .notUtf8)
  | file {cause : ReadError} (noDash : Path.isDash path = false)
      (unreadable : m.Unreadable path cause) : CaptureFails m path (.input path cause)

variable {m : Machine} {path : String}

theorem textOf_eq_error_iff {bytes : Bytes} {cause : ReadError} :
    textOf bytes = .error cause ↔ Utf8.decode? bytes = none ∧ cause = .notUtf8 := by
  unfold textOf
  cases Utf8.decode? bytes <;> simp [eq_comm]

theorem readText_eq_error_iff {cause : ReadError} :
    m.readText path = .error cause ↔ m.Unreadable path cause := by
  constructor
  · intro h
    cases hread : m.read path with
    | error e =>
      rw [readText, hread] at h
      cases h
      exact .refused hread
    | ok bytes =>
      rw [readText, hread] at h
      obtain ⟨hnone, rfl⟩ := textOf_eq_error_iff.1 h
      exact .malformed hread hnone
  · intro h
    cases h with
    | refused answer =>
      rw [readText, answer]
      rfl
    | malformed answer notUtf8 =>
      rw [readText, answer]
      exact textOf_eq_error_iff.2 ⟨notUtf8, rfl⟩

theorem captured_eq_error_iff {e : RunError} :
    m.captured path = .error e ↔ m.CaptureFails path e := by
  unfold captured
  constructor
  · intro h
    split at h
    · next hdash =>
      obtain ⟨cause, htext, rfl⟩ := mapError_eq_error_iff.1 h
      obtain ⟨hnone, rfl⟩ := textOf_eq_error_iff.1 htext
      exact .standardInput hdash hnone
    · next hdash =>
      obtain ⟨cause, htext, rfl⟩ := mapError_eq_error_iff.1 h
      exact .file (Bool.eq_false_iff.2 hdash) (readText_eq_error_iff.1 htext)
  · intro h
    cases h with
    | standardInput dash notUtf8 =>
      rw [if_pos dash]
      exact mapError_eq_error_iff.2 ⟨_, textOf_eq_error_iff.2 ⟨notUtf8, rfl⟩, rfl⟩
    | file noDash unreadable =>
      rw [if_neg (Bool.eq_false_iff.1 noDash)]
      exact mapError_eq_error_iff.2 ⟨_, readText_eq_error_iff.2 unreadable, rfl⟩

end Machine

/-! ## The configuration -/

namespace Config

/-- The file in which the configuration is looked for. -/
inductive SoughtIn (m : Machine) : Option String → String → Prop
  | given (path : String) : SoughtIn m (some path) path
  | standard (found : m.isFile standardPath = true) : SoughtIn m none standardPath

/-- There is no configuration: its file cannot be read or is refused. -/
inductive LoadFails (m : Machine) (path : Option String) : ConfigError → Prop
  | unreadable {file : String} {cause : ReadError} (sought : SoughtIn m path file)
      (unreadable : m.Unreadable file cause) : LoadFails m path (.read file cause)
  | refused {file text : String} {e : ConfigError} (sought : SoughtIn m path file)
      (read : m.readText file = .ok text) (refused : Refuses text e) : LoadFails m path e

variable {m : Machine} {path : Option String}

theorem ofFile_eq_error_iff {file : String} {e : ConfigError} :
    ofFile m file = .error e ↔
      (∃ cause, m.Unreadable file cause ∧ .read file cause = e) ∨
        ∃ text, m.readText file = .ok text ∧ Refuses text e := by
  unfold ofFile
  cases htext : m.readText file with
  | error cause => simp [← Machine.readText_eq_error_iff, htext]
  | ok text => simp [← Machine.readText_eq_error_iff, htext, ofToml_eq_error_iff]

theorem load_of_soughtIn {file : String} (h : SoughtIn m path file) :
    load m path = ofFile m file := by
  cases h with
  | given => rfl
  | standard found => exact if_pos found

theorem load_of_not_soughtIn (h : ∀ file, ¬ SoughtIn m path file) : load m path = .ok {} := by
  cases path with
  | some path => exact absurd (.given path) (h path)
  | none => exact if_neg fun found => h standardPath (.standard found)

theorem load_eq_error_iff {e : ConfigError} : load m path = .error e ↔ LoadFails m path e := by
  constructor
  · intro h
    by_cases hsought : ∃ file, SoughtIn m path file
    · obtain ⟨file, hsought⟩ := hsought
      rw [load_of_soughtIn hsought] at h
      rcases ofFile_eq_error_iff.1 h with ⟨cause, hcause, rfl⟩ | ⟨text, htext, hrefused⟩
      · exact .unreadable hsought hcause
      · exact .refused hsought htext hrefused
    · rw [load_of_not_soughtIn fun file hfile => hsought ⟨file, hfile⟩] at h
      cases h
  · intro h
    cases h with
    | unreadable sought unreadable =>
      rw [load_of_soughtIn sought]
      exact ofFile_eq_error_iff.2 (.inl ⟨_, unreadable, rfl⟩)
    | refused sought read refused =>
      rw [load_of_soughtIn sought]
      exact ofFile_eq_error_iff.2 (.inr ⟨_, read, refused⟩)

/-- A configuration that a run goes on with has a timeout. -/
theorem exists_limit_of_load {c : Config} (h : load m path = .ok c) :
    ∃ limit, c.kubectl.limit = .ok limit := by
  by_cases hsought : ∃ file, SoughtIn m path file
  · obtain ⟨file, hsought⟩ := hsought
    rw [load_of_soughtIn hsought, ofFile] at h
    split at h
    · exact limit_of_ofToml h
    · cases h
  · rw [load_of_not_soughtIn fun file hfile => hsought ⟨file, hfile⟩] at h
    cases h
    exact ⟨.ofMillis 30000, by decide +kernel⟩

end Config

/-! ## The listing -/

/-- A program gives no output that counts: it does not start, runs too long, ends with a status
other than zero or is killed. -/
inductive Execution.Fails (program : String) (limit : Duration) : Execution → RunError → Prop
  | notStarted (cause : StartError) :
      Fails program limit (.notStarted cause) (.notStarted program cause)
  | timedOut : Fails program limit .timedOut (.timedOut program limit)
  | exited {n : Nat} (stdout stderr : Bytes) (nonzero : n ≠ 0) :
      Fails program limit (.finished (.code n) stdout stderr)
        (.failed program (.code n) (Machine.reasonIn (Utf8.lossy stderr)))
  | killed (n : Nat) (stdout stderr : Bytes) :
      Fails program limit (.finished (.signal n) stdout stderr)
        (.failed program (.signal n) (Machine.reasonIn (Utf8.lossy stderr)))

namespace KubectlConfig

variable {k : KubectlConfig} {m : Machine} {limit : Duration}

/-- What becomes of a listing once there is a time limit for it. -/
theorem list_of_limit (hlimit : k.limit = .ok limit) :
    k.list m =
      match m.execute k.binary k.listArgs limit with
      | .notStarted cause => .error (.notStarted k.binary cause)
      | .timedOut => .error (.timedOut k.binary limit)
      | .finished status stdout stderr =>
        if status.isSuccess then .ok (Utf8.lossy stdout)
        else .error (.failed k.binary status (Machine.reasonIn (Utf8.lossy stderr))) := by
  rw [list, hlimit]
  rfl

theorem list_eq_error_iff (hlimit : k.limit = .ok limit) {e : RunError} :
    k.list m = .error e ↔ (m.execute k.binary k.listArgs limit).Fails k.binary limit e := by
  rw [list_of_limit hlimit]
  generalize m.execute k.binary k.listArgs limit = execution
  constructor
  · intro h
    cases execution with
    | notStarted cause =>
      cases h
      exact .notStarted cause
    | timedOut =>
      cases h
      exact .timedOut
    | finished status stdout stderr =>
      simp only at h
      split at h
      · cases h
      · next hstatus =>
        cases h
        cases status with
        | code n =>
          refine .exited stdout stderr ?_
          rintro rfl
          exact hstatus rfl
        | signal n => exact .killed n stdout stderr
  · intro h
    cases h with
    | notStarted cause => rfl
    | timedOut => rfl
    | exited _ _ nonzero => exact if_neg (by simpa [ExitStatus.isSuccess] using nonzero)
    | killed => exact if_neg (by simp [ExitStatus.isSuccess])

end KubectlConfig

namespace PodRequest

/-- How pods are listed for a request: as configured, with the credentials of the request. -/
def listingConfig (r : PodRequest) (k : KubectlConfig) : KubectlConfig :=
  { k with kubeconfig := r.kubeconfig <|> k.kubeconfig }

@[simp] theorem binary_listingConfig (r : PodRequest) (k : KubectlConfig) :
    (r.listingConfig k).binary = k.binary := rfl

@[simp] theorem limit_listingConfig (r : PodRequest) (k : KubectlConfig) :
    (r.listingConfig k).limit = k.limit := by
  simp only [KubectlConfig.limit_eq, listingConfig]

/-- There is no listing to check. -/
inductive ListingFails (r : PodRequest) (m : Machine) (k : KubectlConfig) : RunError → Prop
  | input {path : String} {e : RunError} (given : r.input = some path)
      (fails : m.CaptureFails path e) : ListingFails r m k e
  | program {limit : Duration} {e : RunError} (live : r.input = none)
      (timeout : k.limit = .ok limit)
      (fails : (m.execute k.binary (r.listingConfig k).listArgs limit).Fails k.binary limit e) :
      ListingFails r m k e

variable {r : PodRequest} {m : Machine} {k : KubectlConfig}

theorem listing_of_input {path : String} (hinput : r.input = some path) :
    r.listing m k = m.captured path := by
  rw [listing, hinput]

theorem listing_of_no_input (hinput : r.input = none) :
    r.listing m k = (r.listingConfig k).list m := by
  rw [listing, hinput]
  rfl

theorem listing_eq_error_iff {limit : Duration} (hlimit : k.limit = .ok limit) {e : RunError} :
    r.listing m k = .error e ↔ r.ListingFails m k e := by
  cases hinput : r.input with
  | some path =>
    rw [listing_of_input hinput, Machine.captured_eq_error_iff]
    constructor
    · exact .input hinput
    · intro h
      cases h with
      | input given fails =>
        rw [hinput] at given
        cases given
        exact fails
      | program live => rw [hinput] at live; cases live
  | none =>
    have hlisting : (r.listingConfig k).limit = .ok limit := by rw [limit_listingConfig, hlimit]
    rw [listing_of_no_input hinput, KubectlConfig.list_eq_error_iff hlisting, binary_listingConfig]
    constructor
    · exact .program hinput hlimit
    · intro h
      cases h with
      | input given => rw [hinput] at given; cases given
      | program _ timeout fails =>
        rw [hlimit] at timeout
        cases timeout
        exact fails

/-- A run with identities fails by its thresholds or, if these are in order, by its listing. -/
theorem run_eq_error_iff {hostsFile : String} {config : Config} {policy : Policy} {e : RunError}
    (hids : (r.candidates m hostsFile).isEmpty = false) :
    let warn := r.warn.getD config.thresholds.warn
    let crit := r.crit.getD config.thresholds.crit
    r.run m hostsFile config policy = .error e ↔
      crit < warn ∧ e = .invertedThresholds ⟨warn, crit⟩ ∨
        warn ≤ crit ∧ r.listing m config.kubectl = .error e := by
  intro warn crit
  rcases UInt32.lt_or_le crit warn with hinverted | horder
  · rw [run_inverted hids rfl hinverted]
    simp [hinverted, UInt32.not_le.2 hinverted, eq_comm, Thresholds.override, warn, crit]
  · have ht : r.thresholds config.thresholds = .ok ⟨warn, crit⟩ :=
      thresholds_eq_ok_iff.2 ⟨rfl, horder⟩
    unfold run
    rw [if_neg (Bool.eq_false_iff.1 hids), ht]
    cases r.listing m config.kubectl with
    | error e' => simp [bind, Except.bind, horder, UInt32.not_lt.2 horder]
    | ok text => simp [bind, Except.bind, UInt32.not_lt.2 horder]

end PodRequest

theorem MountRequest.run_eq_error_iff {r : MountRequest} {m : Machine} {config : Config}
    {e : RunError} :
    r.run m config = .error e ↔ m.captured (r.table.getD config.mounts.table) = .error e := by
  unfold run
  cases m.captured (r.table.getD config.mounts.table) <;> simp [bind, Except.bind]

theorem MountRequest.exists_table_of_run {r : MountRequest} {m : Machine} {config : Config}
    {v : Verdict} (h : r.run m config = .ok v) :
    ∃ table, v =
      MountCheck.evaluate ⟨config.mounts.sources, config.check.subject⟩ m.isLive table := by
  unfold run at h
  cases htable : m.captured (r.table.getD config.mounts.table) with
  | error e => rw [htable] at h; cases h
  | ok table =>
    rw [htable] at h
    cases h
    exact ⟨table, rfl⟩

theorem MountCheck.status_evaluate_ne_unknown (check : MountCheck) (isLive : String → Bool)
    (table : String) : (check.evaluate isLive table).status ≠ .unknown := by
  unfold evaluate
  simp only
  split <;> exact nofun

theorem Identities.isEmpty_eq_false_iff {ids : Identities} :
    ids.isEmpty = false ↔ ids.entries ≠ [] := by
  simp [isEmpty]

/-! ## The check -/

namespace Check

/-- A check comes to a step that fails. The steps of a pod check are the configuration, the
thresholds and the listing, of which only a check with identities to look for takes the last two;
those of a mount check are the configuration and the mount table. -/
inductive Fails (m : Machine) (path : Option String) : Check → RunError → Prop
  | config {c : Check} {e : ConfigError} (fails : Config.LoadFails m path e) :
      Fails m path c (.config e)
  | thresholds {config : Config} {policy : Policy} {r : PodRequest} {warn crit : UInt32}
      (loaded : Config.load m path = .ok config)
      (identities : (r.candidates m Invocation.hostsFile).entries ≠ [])
      (mergedWarn : r.warn.getD config.thresholds.warn = warn)
      (mergedCrit : r.crit.getD config.thresholds.crit = crit) (inverted : crit < warn) :
      Fails m path (.pods policy r) (.invertedThresholds ⟨warn, crit⟩)
  | listing {config : Config} {policy : Policy} {r : PodRequest} {e : RunError}
      (loaded : Config.load m path = .ok config)
      (identities : (r.candidates m Invocation.hostsFile).entries ≠ [])
      (ordered : r.warn.getD config.thresholds.warn ≤ r.crit.getD config.thresholds.crit)
      (fails : r.ListingFails m config.kubectl e) : Fails m path (.pods policy r) e
  | table {config : Config} {r : MountRequest} {e : RunError}
      (loaded : Config.load m path = .ok config)
      (fails : m.CaptureFails (r.table.getD config.mounts.table) e) : Fails m path (.mounts r) e

/-- A pod check knows no name or address of the node. -/
def HasNoIdentity (m : Machine) : Check → Prop
  | .pods _ r => (r.candidates m Invocation.hostsFile).entries = []
  | .mounts _ => False

variable {m : Machine} {path : Option String} {c : Check}

theorem runConfigured_of_load {config : Config} (loaded : Config.load m path = .ok config) :
    c.runConfigured m path = c.run m config := by
  rw [runConfigured, loaded]
  rfl

theorem exists_config_of_runConfigured {v : Verdict} (h : c.runConfigured m path = .ok v) :
    ∃ config, Config.load m path = .ok config ∧ c.run m config = .ok v := by
  cases hload : Config.load m path with
  | error e =>
    rw [runConfigured, hload] at h
    cases h
  | ok config =>
    rw [runConfigured_of_load hload] at h
    exact ⟨config, rfl, h⟩

theorem fails_config_iff {e : ConfigError} (hload : Config.load m path = .error e)
    {e' : RunError} : Fails m path c e' ↔ .config e = e' := by
  constructor
  · intro h
    cases h with
    | config fails =>
      rw [Config.load_eq_error_iff.2 fails] at hload
      cases hload
      rfl
    | thresholds loaded | listing loaded | table loaded =>
      rw [loaded] at hload
      cases hload
  · rintro rfl
    exact .config (Config.load_eq_error_iff.1 hload)

theorem run_pods_eq_error_iff {config : Config} {policy : Policy} {r : PodRequest} {e : RunError}
    (loaded : Config.load m path = .ok config) :
    run m config (.pods policy r) = .error e ↔ Fails m path (.pods policy r) e := by
  obtain ⟨limit, hlimit⟩ := Config.exists_limit_of_load loaded
  show r.run m Invocation.hostsFile config policy = .error e ↔ _
  constructor
  · intro h
    cases hids : (r.candidates m Invocation.hostsFile).isEmpty with
    | true =>
      rw [PodRequest.run_of_no_identity hids] at h
      cases h
    | false =>
      have hentries := Identities.isEmpty_eq_false_iff.1 hids
      rcases (PodRequest.run_eq_error_iff hids).1 h with ⟨hinverted, rfl⟩ | ⟨horder, hlisting⟩
      · exact .thresholds loaded hentries rfl rfl hinverted
      · exact .listing loaded hentries horder
          ((PodRequest.listing_eq_error_iff hlimit).1 hlisting)
  · intro h
    cases h with
    | config fails =>
      rw [Config.load_eq_error_iff.2 fails] at loaded
      cases loaded
    | thresholds loaded' identities mergedWarn mergedCrit inverted =>
      rw [loaded] at loaded'
      cases loaded'
      subst mergedWarn mergedCrit
      exact (PodRequest.run_eq_error_iff (Identities.isEmpty_eq_false_iff.2 identities)).2
        (.inl ⟨inverted, rfl⟩)
    | listing loaded' identities ordered fails =>
      rw [loaded] at loaded'
      cases loaded'
      exact (PodRequest.run_eq_error_iff (Identities.isEmpty_eq_false_iff.2 identities)).2
        (.inr ⟨ordered, (PodRequest.listing_eq_error_iff hlimit).2 fails⟩)

theorem run_mounts_eq_error_iff {config : Config} {r : MountRequest} {e : RunError}
    (loaded : Config.load m path = .ok config) :
    run m config (.mounts r) = .error e ↔ Fails m path (.mounts r) e := by
  show r.run m config = .error e ↔ _
  rw [MountRequest.run_eq_error_iff, Machine.captured_eq_error_iff]
  constructor
  · exact .table loaded
  · intro h
    cases h with
    | config fails =>
      rw [Config.load_eq_error_iff.2 fails] at loaded
      cases loaded
    | table loaded' fails =>
      rw [loaded] at loaded'
      cases loaded'
      exact fails

/-- A check ends with an error exactly when it comes to a step that fails with it. -/
theorem runConfigured_eq_error_iff {e : RunError} :
    c.runConfigured m path = .error e ↔ c.Fails m path e := by
  cases hload : Config.load m path with
  | error cause =>
    rw [fails_config_iff hload, runConfigured, hload]
    simp [Except.mapError, bind, Except.bind]
  | ok config =>
    rw [runConfigured_of_load hload]
    cases c with
    | pods policy r => exact run_pods_eq_error_iff hload
    | mounts r => exact run_mounts_eq_error_iff hload

/-! ## The verdict -/

theorem verdict_of_error {e : RunError} (h : c.runConfigured m path = .error e) :
    c.verdict m path = .unknown e.message := by
  rw [verdict, h]

theorem verdict_of_ok {v : Verdict} (h : c.runConfigured m path = .ok v) :
    c.verdict m path = v := by
  rw [verdict, h]

theorem run_of_no_identity {config : Config} (h : c.HasNoIdentity m) :
    c.run m config = .ok (Verdict.unknown "No candidate identity given.") := by
  cases c with
  | mounts r => cases h
  | pods policy r =>
    refine PodRequest.run_of_no_identity ?_
    rw [HasNoIdentity] at h
    simp [Identities.isEmpty, h]

/-- A check that does not fail is unknown only if it has no identity to look for: neither rules nor
mounts make a verdict unknown. -/
theorem hasNoIdentity_of_run {config : Config} {v : Verdict} (h : c.run m config = .ok v)
    (hv : v.status = .unknown) : c.HasNoIdentity m := by
  cases c with
  | mounts r =>
    obtain ⟨table, rfl⟩ := MountRequest.exists_table_of_run h
    exact absurd hv (MountCheck.status_evaluate_ne_unknown _ _ _)
  | pods policy r =>
    cases hids : (r.candidates m Invocation.hostsFile).isEmpty with
    | true => exact List.isEmpty_iff.1 hids
    | false =>
      obtain ⟨t, text, -, -, rfl⟩ := (PodRequest.run_eq_ok_iff hids).1 h
      exact absurd hv (Evaluator.decides_judge _ _).status_ne_unknown

/-- A check is unknown if it fails or has no identity to look for, and in no other case. -/
theorem status_verdict_eq_unknown_iff :
    (c.verdict m path).status = .unknown ↔ (∃ e, c.Fails m path e) ∨ c.HasNoIdentity m := by
  cases hrun : c.runConfigured m path with
  | error e =>
    rw [verdict_of_error hrun]
    simp only [Verdict.unknown, Verdict.ofText, true_iff]
    exact .inl ⟨e, runConfigured_eq_error_iff.1 hrun⟩
  | ok v =>
    have hnever : ¬ ∃ e, c.Fails m path e := by
      rintro ⟨e, he⟩
      rw [runConfigured_eq_error_iff.2 he] at hrun
      cases hrun
    obtain ⟨config, -, hconfigured⟩ := exists_config_of_runConfigured hrun
    rw [verdict_of_ok hrun]
    constructor
    · exact fun hv => .inr (hasNoIdentity_of_run hconfigured hv)
    · rintro (hfails | hids)
      · exact absurd hfails hnever
      · rw [run_of_no_identity hids] at hconfigured
        cases hconfigured
        rfl

end Check

end NodeHealth
