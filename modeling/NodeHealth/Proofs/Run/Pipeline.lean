import Mathlib.Data.List.Basic
import NodeHealth.Proofs.Pod.Reading
import NodeHealth.Proofs.Run.Calm
import NodeHealth.Proofs.Text.Lines

/-!
# A run is the evaluation of a text

A run puts reading, selection and evaluation together itself, where `Evaluator.checkListing` does
the same for a caller that has a text. The two agree on every text. A check that is limited to
restarts agrees with the evaluation of a text from which the lines of other workloads are deleted:
it makes no difference whether rows are narrowed by name after they are selected, or lines before
they are read.

* `Row.ofListing_keepLines`: deleting lines by their first word is choosing rows by their name.
* `PodRequest.run_eq_checkListing`: what a run says of a text.
-/

namespace NodeHealth

namespace Row

/-- Whether the first word of a line, if it has one, begins with the given text. -/
def opensWith (start line : String) : Bool :=
  (Text.words line).head?.all fun word => start.toList.isPrefixOf word.toList

/-- The first word of a pod line is its name. -/
theorem head?_words_of_ofLine? {line : String} {row : Row} (h : ofLine? line = some row) :
    (Text.words line).head? = some row.name := by
  obtain ⟨-, _, _, _, _, hname, -⟩ := ofTokens?_eq_some_iff.1 h
  rw [List.head?_eq_getElem?, hname]

/-- Deleting lines by their first word is choosing rows by their name. -/
theorem ofListing_keepLines (start text : String) :
    ofListing (Text.keepLines (opensWith start) text) =
      (ofListing text).filter fun row => start.toList.isPrefixOf row.name.toList := by
  rw [ofListing, Text.lines_keepLines, List.filterMap_filter, ofListing, List.filter_filterMap]
  refine List.filterMap_congr fun line _ => ?_
  cases hrow : ofLine? line with
  | none => simp
  | some row => simp [opensWith, head?_words_of_ofLine? hrow, Option.filter]

end Row

theorem MatchSet.named_select (rows : List Row) (ids : Identities) (start : String) :
    (select rows ids).named start =
      select (rows.filter fun row => start.toList.isPrefixOf row.name.toList) ids :=
  congrArg MatchSet.mk (List.filter_comm _ _ rows)

namespace PodRequest

theorem judge_singleton (config : Config) (t : Thresholds) (ids : Identities) (text : String) :
    (judge config .singleton t ids text).verdict =
      Evaluator.checkListing ⟨.singleton, t, config.check.subject⟩ text ids := rfl

/-- Rows may be narrowed by name after they are selected, or lines before they are read. -/
theorem judge_restartsOnly (config : Config) (t : Thresholds) (ids : Identities) (text : String) :
    (judge config .restartsOnly t ids text).verdict =
      Evaluator.checkListing ⟨.restartsOnly, t, config.check.subject⟩
        (Text.keepLines (Row.opensWith config.check.nameStart) text) ids := by
  rw [Evaluator.checkListing, Row.ofListing_keepLines, ← MatchSet.named_select]
  rfl

variable {r : PodRequest} {m : Machine} {hostsFile : String} {config : Config} {policy : Policy}

theorem run_of_lists {t : Thresholds} {text : String}
    (hids : (r.candidates m hostsFile).entries ≠ [])
    (ht : config.thresholds.override r.warn r.crit = t) (horder : t.warn ≤ t.crit)
    (htext : r.Lists m config.kubectl text) :
    r.run m hostsFile config policy =
      .ok (judge config policy t (r.candidates m hostsFile) text).verdict :=
  (run_eq_ok_iff (Identities.isEmpty_eq_false_iff.2 hids)).2
    ⟨t, text, thresholds_eq_ok_iff.2 ⟨ht, horder⟩, listing_eq_ok_iff.2 htext, rfl⟩

/-- A run whose thresholds are in order says of a text what evaluating the text says: all of it, or
for a check that is limited to restarts what is left of it when every line is deleted whose first
word does not begin as configured. -/
theorem run_eq_checkListing (r : PodRequest) (m : Machine) (hostsFile : String) (config : Config) :
    let ids := r.candidates m hostsFile
    let warn := r.warn.getD config.thresholds.warn
    let crit := r.crit.getD config.thresholds.crit
    let subject := config.check.subject
    ids.entries ≠ [] → warn ≤ crit → ∀ text, r.Lists m config.kubectl text →
      r.run m hostsFile config .singleton =
        .ok (Evaluator.checkListing ⟨.singleton, ⟨warn, crit⟩, subject⟩ text ids) ∧
      r.run m hostsFile config .restartsOnly =
        .ok (Evaluator.checkListing ⟨.restartsOnly, ⟨warn, crit⟩, subject⟩
          (Text.keepLines (Row.opensWith config.check.nameStart) text) ids) := by
  intro ids warn crit subject hids horder text htext
  constructor
  · rw [run_of_lists hids rfl horder htext, judge_singleton]
    rfl
  · rw [run_of_lists hids rfl horder htext, judge_restartsOnly]
    rfl

theorem run_sampleText :
    (candidates {} sampleMachine "hosts").entries ≠ [] ∧ (3 : UInt32) ≤ 10 ∧
    Lists {} sampleMachine {} sampleText ∧
    run {} sampleMachine "hosts" {} .singleton =
      .ok (Evaluator.checkListing {} sampleText (candidates {} sampleMachine "hosts")) ∧
    run {} sampleMachine "hosts" {} .restartsOnly =
      .ok (Evaluator.checkListing { policy := .restartsOnly }
        "irods-csi-driver-node-a 3/3 Running 4 1d 10.0.0.1 n1 <none> <none>\n"
        (candidates {} sampleMachine "hosts")) := by
  have hids : (candidates {} sampleMachine "hosts").entries ≠ [] := by decide +kernel
  have hlists : Lists {} sampleMachine {} sampleText := lists_sampleMachine rfl
  have hkept : Text.keepLines (Row.opensWith "irods-csi-driver-node") sampleText =
      "irods-csi-driver-node-a 3/3 Running 4 1d 10.0.0.1 n1 <none> <none>\n" := by decide +kernel
  obtain ⟨hpods, hrestarts⟩ :=
    run_eq_checkListing {} sampleMachine "hosts" {} hids (by decide) sampleText hlists
  refine ⟨hids, by decide, hlists, hpods, ?_⟩
  rw [← hkept]
  exact hrestarts

end PodRequest

end NodeHealth
