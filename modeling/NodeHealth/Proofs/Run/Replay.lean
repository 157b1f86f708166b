import NodeHealth.Proofs.Run.Listing

/-!
# Replaying a listing

What the program that lists pods printed can be captured and checked again, on another machine and
at another time. A printed listing is read with U+FFFD in place of its ill-formed parts, but
captured output that is not well-formed UTF-8 is refused.

* `PodRequest.run_replay`: a replay ends as the run did, with the same verdict or the same error,
  if what was printed is well formed or neither of them gets as far as the listing. In every other
  case the run gives a verdict and the replay fails.
* `PodRequest.replay_of_illFormed`: the second case happens.
-/

namespace NodeHealth.PodRequest

/-- The request `replay`, on the machine `m'`, checks again what `live` checked on `m`: the program
printed the bytes that the path leads to, and both requests give the same thresholds and identify
the same node. -/
structure Replays (k : KubectlConfig) (hostsFile : String) (live : PodRequest) (m : Machine)
    (replay : PodRequest) (m' : Machine) (path : String) (bytes : Bytes) : Prop where
  noInput : live.input = none
  printed : ∃ limit stderr, k.limit = .ok limit ∧
    m.execute k.binary (live.listingConfig k).listArgs limit = .finished (.code 0) bytes stderr
  given : replay.input = some path
  holds : m'.Holds path bytes
  warn : replay.warn = live.warn
  crit : replay.crit = live.crit
  identities : replay.candidates m' hostsFile = live.candidates m hostsFile

namespace Replays

variable {hostsFile path : String} {live replay : PodRequest} {m m' : Machine} {config : Config}
  {policy : Policy} {bytes : Bytes}
  (h : Replays config.kubectl hostsFile live m replay m' path bytes)

include h

theorem listing_live : live.listing m config.kubectl = .ok (Utf8.lossy bytes) := by
  obtain ⟨limit, stderr, hlimit, hexecute⟩ := h.printed
  exact listing_eq_ok_iff.2 (.printed h.noInput hlimit hexecute)

theorem listing_wellFormed {text : String} (hutf8 : Utf8.decode? bytes = some text) :
    replay.listing m' config.kubectl = live.listing m config.kubectl := by
  rw [h.listing_live, Utf8.lossy_of_decode? hutf8]
  exact listing_eq_ok_iff.2 (.captured h.given h.holds hutf8)

theorem exists_captureFails (hutf8 : Utf8.decode? bytes = none) :
    ∃ e, m'.CaptureFails path e := by
  cases h.holds with
  | standardInput dash => exact ⟨_, .standardInput dash hutf8⟩
  | file noDash answer => exact ⟨_, .file noDash (.malformed answer hutf8)⟩

/-- Up to the listing a replay does what the run did. -/
theorem run_eq :
    replay.run m' hostsFile config policy =
      if (live.candidates m hostsFile).isEmpty then
        .ok (Verdict.unknown "No candidate identity given.")
      else
        live.thresholds config.thresholds >>= fun t =>
        replay.listing m' config.kubectl >>= fun text =>
        .ok (judge config policy t (live.candidates m hostsFile) text).verdict := by
  have ht : replay.thresholds config.thresholds = live.thresholds config.thresholds := by
    rw [thresholds, h.warn, h.crit, thresholds]
  unfold run
  rw [h.identities, ht]

theorem run_of_no_identity (hids : (live.candidates m hostsFile).isEmpty = true) :
    replay.run m' hostsFile config policy = live.run m hostsFile config policy := by
  rw [h.run_eq, PodRequest.run_of_no_identity hids, if_pos hids]

theorem run_of_inverted (hids : (live.candidates m hostsFile).isEmpty = false) {t : Thresholds}
    (ht : config.thresholds.override live.warn live.crit = t) (hinverted : t.crit < t.warn) :
    replay.run m' hostsFile config policy = live.run m hostsFile config policy := by
  rw [h.run_eq, run_inverted hids ht hinverted, if_neg (Bool.eq_false_iff.1 hids),
    thresholds_of_inverted ht hinverted]
  rfl

theorem run_of_wellFormed {text : String} (hutf8 : Utf8.decode? bytes = some text) :
    replay.run m' hostsFile config policy = live.run m hostsFile config policy := by
  rw [h.run_eq, h.listing_wellFormed hutf8]
  rfl

/-- With identities and thresholds in order, what was printed decides: the run gives a verdict
whatever it is, and the replay fails if it is ill formed. -/
theorem run_of_illFormed (hids : (live.candidates m hostsFile).isEmpty = false) {t : Thresholds}
    (ht : config.thresholds.override live.warn live.crit = t) (horder : t.warn ≤ t.crit)
    (hutf8 : Utf8.decode? bytes = none) :
    live.run m hostsFile config policy =
        .ok (judge config policy t (live.candidates m hostsFile) (Utf8.lossy bytes)).verdict ∧
      ∃ e, m'.CaptureFails path e ∧ replay.run m' hostsFile config policy = .error e := by
  have hthresholds : live.thresholds config.thresholds = .ok t :=
    thresholds_eq_ok_iff.2 ⟨ht, horder⟩
  obtain ⟨e, hfails⟩ := h.exists_captureFails hutf8
  have hlisting : replay.listing m' config.kubectl = .error e := by
    rw [listing_of_input h.given]
    exact Machine.captured_eq_error_iff.2 hfails
  refine ⟨(run_eq_ok_iff hids).2 ⟨t, _, hthresholds, h.listing_live, rfl⟩, e, hfails, ?_⟩
  rw [h.run_eq, if_neg (Bool.eq_false_iff.1 hids), hthresholds, hlisting]
  rfl

end Replays

/-- A replay ends as the run did if what was printed is well formed, or if neither gets as far as
the listing. Otherwise the run gives a verdict, and the replay fails because it takes the captured
output for unreadable. -/
theorem run_replay (config : Config) (policy : Policy) {hostsFile path : String}
    {live replay : PodRequest} {m m' : Machine} {bytes : Bytes}
    (h : Replays config.kubectl hostsFile live m replay m' path bytes) :
    let ids := live.candidates m hostsFile
    let warn := live.warn.getD config.thresholds.warn
    let crit := live.crit.getD config.thresholds.crit
    (ids.entries = [] ∨ crit < warn ∨ (∃ text, Utf8.decode? bytes = some text) →
      replay.run m' hostsFile config policy = live.run m hostsFile config policy) ∧
    (ids.entries ≠ [] → warn ≤ crit → Utf8.decode? bytes = none →
      live.run m hostsFile config policy =
          .ok (judge config policy ⟨warn, crit⟩ ids (Utf8.lossy bytes)).verdict ∧
        ∃ e, m'.CaptureFails path e ∧ replay.run m' hostsFile config policy = .error e) := by
  intro ids warn crit
  constructor
  · intro hcases
    cases hids : ids.isEmpty with
    | true => exact h.run_of_no_identity hids
    | false =>
      rcases hcases with hnone | hinverted | ⟨text, hutf8⟩
      · exact absurd hnone (Identities.isEmpty_eq_false_iff.1 hids)
      · exact h.run_of_inverted hids rfl hinverted
      · exact h.run_of_wellFormed hutf8
  · intro hids horder hutf8
    exact h.run_of_illFormed (Identities.isEmpty_eq_false_iff.2 hids) rfl horder hutf8

/-! ## A listing with a byte that is no character -/

/-- A machine on which the program prints the bytes and a file holds them. -/
def captureMachine (bytes : Bytes) : Machine where
  hostname := none
  names := .silent
  read path := if path = "pods.txt" then .ok bytes else .error (.os .notFound)
  isFile _ := false
  stdin := []
  execute _ _ _ := .finished (.code 0) bytes []
  isLive _ := false

/-- The line of a pod that is well. -/
def calmBytes : Bytes := Utf8.encode "a 3/3 Running 0 1d 10.0.0.1 n1 <none> <none>\n"

theorem replays_captureMachine (bytes : Bytes) :
    Replays {} "hosts" { identities := ["n1"] } (captureMachine bytes)
      { identities := ["n1"], input := some "pods.txt" } (captureMachine bytes) "pods.txt"
      bytes where
  noInput := rfl
  printed := ⟨.ofMillis 30000, [], by decide +kernel, rfl⟩
  given := rfl
  holds := .file (by decide +kernel) rfl
  warn := rfl
  crit := rfl
  identities := rfl

theorem run_replay_calmBytes :
    Replays {} "hosts" { identities := ["n1"] } (captureMachine calmBytes)
      { identities := ["n1"], input := some "pods.txt" } (captureMachine calmBytes) "pods.txt"
      calmBytes ∧
    run { identities := ["n1"], input := some "pods.txt" } (captureMachine calmBytes) "hosts" {}
        .singleton =
      run { identities := ["n1"] } (captureMachine calmBytes) "hosts" {} .singleton ∧
    ∃ e, run { identities := ["n1"], input := some "pods.txt" }
      (captureMachine (calmBytes ++ [0xFF])) "hosts" {} .singleton = .error e := by
  have hread : Utf8.decode? calmBytes =
      some "a 3/3 Running 0 1d 10.0.0.1 n1 <none> <none>\n" := by decide +kernel
  have hids : (candidates { identities := ["n1"] } (captureMachine (calmBytes ++ [0xFF]))
      "hosts").entries ≠ [] := by decide +kernel
  refine ⟨replays_captureMachine calmBytes, ?_, ?_⟩
  · exact (run_replay {} .singleton (replays_captureMachine calmBytes)).1
      (.inr (.inr ⟨_, hread⟩))
  · obtain ⟨-, e, -, he⟩ :=
      (run_replay {} .singleton (replays_captureMachine (calmBytes ++ [0xFF]))).2 hids
        (by decide) (by decide +kernel)
    exact ⟨e, he⟩

/-- A byte that is no character, on a line that no check is about, makes a replay fail. -/
theorem replay_of_illFormed :
    Replays {} "hosts" { identities := ["n1"] } (captureMachine (calmBytes ++ [0xFF]))
      { identities := ["n1"], input := some "pods.txt" } (captureMachine (calmBytes ++ [0xFF]))
      "pods.txt" (calmBytes ++ [0xFF]) ∧
    run { identities := ["n1"] } (captureMachine (calmBytes ++ [0xFF])) "hosts" {} .singleton =
      .ok (.ofText .ok "iRODS CSI Driver is running well." []) ∧
    run { identities := ["n1"], input := some "pods.txt" } (captureMachine (calmBytes ++ [0xFF]))
      "hosts" {} .singleton = .error (.input "pods.txt" .notUtf8) :=
  ⟨replays_captureMachine _, by decide +kernel, by decide +kernel⟩

end NodeHealth.PodRequest
