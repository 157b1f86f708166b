import NodeHealth.Proofs.Pod.Message
import NodeHealth.Proofs.Text.Tidy

/-!
# Reporting changes blanks alone

A verdict is reported as text by putting its message on one line. That is the one tidy text with the
words of the message, so a reported line is reported as it is. The message of a verdict on a listing
is tidy if the subject is, since the labels in it hold no blanks.

* `Decides.isTidy_message_iff`: when the message of a verdict on a listing is tidy.
* `Verdict.render_text_tidy`: what is reported of any verdict, and which verdicts on a listing are
  reported in the words and blanks of their message.
-/

namespace NodeHealth

theorem Row.isWord_label_of_mem_ofListing {text : String} {row : Row}
    (h : row ∈ Row.ofListing text) : Chars.IsWord row.label.toList := by
  obtain ⟨line, -, hline⟩ := List.mem_filterMap.1 h
  exact Row.isWord_label hline

theorem Status.isTidy_label (s : Status) : Text.IsTidy s.label := by
  rw [← Text.oneLine_eq_self_iff, Text.oneLine, s.words_label, String.intercalate_singleton]

theorem Status.label_ne_empty (s : Status) : s.label ≠ "" := by
  cases s <;> decide

theorem Rule.words_ne_nil (t : Thresholds) (labels : List String) (r : Rule) :
    r.words t labels ≠ [] := by
  cases r <;> simp [words, restartWords]

/-- What stands behind the subject of a message is not empty. -/
theorem Rule.intercalate_words_ne_empty {labels : List String} (t : Thresholds)
    (h : ∀ label ∈ labels, Chars.IsWord label.toList) (r : Rule) :
    " ".intercalate (r.words t labels) ≠ "" := by
  intro hempty
  have hwords := Text.words_intercalate (r.isWord_words t h)
  rw [hempty] at hwords
  exact r.words_ne_nil t labels hwords.symm

/-- The labels in a message hold no blanks, so that the subject alone can make it untidy. -/
theorem Decides.isTidy_message_iff {e : Evaluator} {set : MatchSet} {d : Decision}
    (h : Decides e set d) (hlabels : ∀ row ∈ set.rows, Chars.IsWord row.label.toList) :
    Text.IsTidy d.verdict.message ↔ Text.IsTidy e.subject ∧ e.subject ≠ "" := by
  have hinstances := h.isWord_of_mem_instances hlabels
  have hmessage : d.verdict.message = d.rule.status.label ++ " " ++ ("-" ++ " " ++ (e.subject ++
      " " ++ " ".intercalate (d.rule.words e.thresholds d.verdict.instances))) := by
    refine (congrArg Verdict.message (Evaluator.verdict_of_decides h)).trans ?_
    rw [Verdict.ofText, Rule.text_eq]
    simp [← String.toList_inj]
  have hword : Chars.IsWord "-".toList := by decide
  have hdash : Text.IsTidy "-" := Chars.isTidy_of_unblank hword.2
  have htail := Text.isTidy_intercalate (d.rule.isWord_words e.thresholds hinstances)
  have hne := d.rule.intercalate_words_ne_empty e.thresholds hinstances
  rw [hmessage, Text.isTidy_append_space, Text.isTidy_append_space, Text.isTidy_append_space]
  simp [d.rule.status.isTidy_label, d.rule.status.label_ne_empty, hdash, htail, hne]

theorem Evaluator.isTidy_message_iff (e : Evaluator) (text : String) (ids : Identities) :
    Text.IsTidy (e.checkListing text ids).message ↔ Text.IsTidy e.subject ∧ e.subject ≠ "" := by
  refine (decides_judge e (MatchSet.select (Row.ofListing text) ids)).isTidy_message_iff ?_
  exact fun row hrow => Row.isWord_label_of_mem_ofListing (List.mem_filter.1 hrow).1

/-- The report of a verdict as text is the one tidy text with the words of its message, and is
reported as it is. The report of a verdict on a listing is its message, letter for letter, if the
subject is tidy and not empty, and only then. -/
theorem Verdict.render_text_tidy :
    (∀ (v : Verdict) (line : String),
      v.render .text = line ↔ Text.IsTidy line ∧ Text.words line = Text.words v.message) ∧
    (∀ (v : Verdict) (status : Status) (instances : List String),
      Verdict.render ⟨status, v.render .text, instances⟩ .text = v.render .text) ∧
    ∀ (e : Evaluator) (text : String) (ids : Identities),
      (e.checkListing text ids).render .text = (e.checkListing text ids).message ↔
        Text.IsTidy e.subject ∧ e.subject ≠ "" := by
  refine ⟨fun v line => Text.oneLine_eq_iff, fun v status instances => ?_, fun e text ids => ?_⟩
  · exact Text.oneLine_eq_self_iff.2 (Text.isTidy_oneLine v.message)
  · rw [← e.isTidy_message_iff text ids]
    exact Text.oneLine_eq_self_iff

end NodeHealth
