import NodeHealth.Proofs.Pod.DecisionTable
import NodeHealth.Proofs.Pod.Reading
import NodeHealth.Proofs.Text.Numeral
import NodeHealth.Proofs.Verdict.Report

/-!
# The words of a message

The message of a rule is the subject and then words with single spaces between them
(`Rule.words`). The labels of rows that were read hold no blank, so each is one of these words but
for the brackets and commas around it, and the words tell the labels apart.

* `Rule.text_eq`: a message is the subject and the words behind it.
* `Rule.labels_eq_of_words_eq`: messages with the same words list the same labels.
* `Evaluator.verdict_of_line`: the line of a verdict on a listing tells the whole verdict.
-/

namespace NodeHealth

namespace Rule

/-! ## Messages as words -/

/-- The words of labels with commas between them, the first given on its own, and what closes
them. -/
def enumeration : (first : String) → List String → List String
  | first, [] => [first ++ "]."]
  | first, label :: labels => (first ++ ",") :: enumeration label labels

/-- The words of labels as a message lists them. -/
def listedWords : List String → List String
  | [] => enumeration "[" []
  | label :: labels => enumeration ("[" ++ label) labels

/-- The words of a message about instances that restarted more often than `limit`. -/
def restartWords (limit : UInt32) (labels : List String) : List String :=
  ["restarted", "more", "than"] ++
    toString limit.toNat :: ["times.", "Restarted", "instances", "are"] ++
    (listedWords labels ++ ["Check", "irodsfs", "mounts."])

/-- The words of a message behind its subject. -/
def words (t : Thresholds) (labels : List String) : Rule → List String
  | healthySingleton | quiet => ["is", "running", "well."]
  | noneRunning => ["is", "not", "running.", "No", "instance", "running."]
  | multipleRunning =>
    ["is", "running", "more", "than", "1", "instance.", "Running", "instances", "are"] ++
      listedWords labels
  | stopped => ["is", "not", "running.", "Failed", "instances", "are"] ++ listedWords labels
  | criticalRestarts => restartWords t.crit labels
  | warningRestarts => restartWords t.warn labels
  | fallback => ["status", "unknown."]

theorem enumeration_ne_nil (first : String) (labels : List String) :
    enumeration first labels ≠ [] := by
  cases labels <;> exact List.cons_ne_nil _ _

theorem intercalate_enumeration (first : String) (labels : List String) :
    " ".intercalate (enumeration first labels) = ", ".intercalate (first :: labels) ++ "]." := by
  induction labels generalizing first with
  | nil => simp [enumeration]
  | cons label labels ih =>
    rw [enumeration, String.intercalate_cons_of_ne_nil (enumeration_ne_nil label labels), ih,
      String.intercalate_cons_cons]
    simp [← String.toList_inj]

theorem listedWords_ne_nil (labels : List String) : listedWords labels ≠ [] := by
  cases labels <;> exact enumeration_ne_nil _ _

theorem intercalate_listedWords (labels : List String) :
    " ".intercalate (listedWords labels) = listing labels ++ "." := by
  cases labels with
  | nil => rfl
  | cons label labels =>
    rw [listedWords, intercalate_enumeration, String.intercalate_cons_append, listing]
    simp [← String.toList_inj]

theorem intercalate_restartWords (limit : UInt32) (labels : List String) :
    " ".intercalate (restartWords limit labels) =
      "restarted more than " ++ toString limit.toNat ++ " times. Restarted instances are " ++
        listing labels ++ ". Check irodsfs mounts." := by
  have hlisted := listedWords_ne_nil labels
  rw [restartWords, String.intercalate_append_of_ne_nil
      (List.append_ne_nil_of_left_ne_nil (List.cons_ne_nil _ _) _)
      (List.append_ne_nil_of_left_ne_nil hlisted _),
    String.intercalate_append_of_ne_nil hlisted (List.cons_ne_nil _ _), intercalate_listedWords]
  simp [← String.toList_inj]

/-- A message is its subject and the words behind it. -/
theorem text_eq (subject : String) (t : Thresholds) (labels : List String) (r : Rule) :
    r.text subject t labels = subject ++ " " ++ " ".intercalate (r.words t labels) := by
  cases r with
  | healthySingleton | quiet | noneRunning | fallback =>
    rw [String.append_assoc]
    rfl
  | multipleRunning | stopped =>
    have hlisted := listedWords_ne_nil labels
    rw [words, String.intercalate_append_of_ne_nil (List.cons_ne_nil _ _) hlisted,
      intercalate_listedWords]
    simp [← String.toList_inj, text]
  | criticalRestarts | warningRestarts =>
    rw [words, intercalate_restartWords]
    simp [← String.toList_inj, text, restartText]

/-! ## Reading a message -/

section Reading

variable {first : String} {labels labels' : List String}

theorem isWord_enumeration (hfirst : Chars.IsWord first.toList)
    (h : ∀ label ∈ labels, Chars.IsWord label.toList) :
    ∀ w ∈ enumeration first labels, Chars.IsWord w.toList := by
  induction labels generalizing first with
  | nil =>
    intro w hw
    rw [List.mem_singleton.1 hw]
    exact Text.isWord_append hfirst.2 (by decide)
  | cons label labels ih =>
    intro w hw
    rcases List.mem_cons.1 hw with rfl | hw
    · exact Text.isWord_append hfirst.2 (by decide)
    · exact ih (h label List.mem_cons_self) (fun l hl => h l (List.mem_cons_of_mem label hl)) w hw

theorem isWord_listedWords (h : ∀ label ∈ labels, Chars.IsWord label.toList) :
    ∀ w ∈ listedWords labels, Chars.IsWord w.toList := by
  cases labels with
  | nil => exact isWord_enumeration (by decide) (List.forall_mem_nil _)
  | cons label labels =>
    have hlabel := h label List.mem_cons_self
    have hbracket : Chars.IsWord "[".toList := by decide
    exact isWord_enumeration (Text.isWord_append hbracket.2 hlabel)
      fun l hl => h l (List.mem_cons_of_mem label hl)

theorem isWord_count (n : UInt32) : Chars.IsWord (toString n.toNat).toList := by
  have hdigits : (toString n.toNat).toList = Nat.toDigits 10 n.toNat := by simp
  rw [hdigits]
  exact ⟨Nat.toDigits_ne_nil, fun c hc =>
    Numeral.isBlank_of_isDigit (Numeral.isDigit_of_mem_toDigits hc)⟩

theorem isWord_restartWords (limit : UInt32)
    (h : ∀ label ∈ labels, Chars.IsWord label.toList) :
    ∀ w ∈ restartWords limit labels, Chars.IsWord w.toList := by
  refine List.forall_mem_append.2 ⟨List.forall_mem_append.2 ⟨by decide, ?_⟩, ?_⟩
  · exact List.forall_mem_cons.2 ⟨isWord_count limit, by decide⟩
  · exact List.forall_mem_append.2 ⟨isWord_listedWords h, by decide⟩

theorem isWord_words (t : Thresholds) (h : ∀ label ∈ labels, Chars.IsWord label.toList)
    (r : Rule) : ∀ w ∈ r.words t labels, Chars.IsWord w.toList := by
  have hlisted := isWord_listedWords h
  cases r with
  | healthySingleton | quiet | noneRunning | fallback =>
    rw [words]
    decide
  | multipleRunning | stopped => exact List.forall_mem_append.2 ⟨by decide, hlisted⟩
  | criticalRestarts | warningRestarts => exact isWord_restartWords _ h

/-- The words of a message are those of the subject and the words behind it. -/
theorem words_text (subject : String) (t : Thresholds)
    (h : ∀ label ∈ labels, Chars.IsWord label.toList) (r : Rule) :
    Text.words (r.text subject t labels) = Text.words subject ++ r.words t labels := by
  rw [text_eq, Text.words_append_space, Text.words_intercalate (isWord_words t h r)]

theorem enumeration_inj {first' : String}
    (h : enumeration first labels = enumeration first' labels') :
    first = first' ∧ labels = labels' := by
  induction labels generalizing first first' labels' with
  | nil =>
    cases labels' with
    | nil =>
      rw [enumeration, enumeration, List.singleton_inj, String.append_left_inj] at h
      exact ⟨h, rfl⟩
    | cons label' labels' =>
      exact absurd (List.cons.inj h).2.symm (enumeration_ne_nil label' labels')
  | cons label labels ih =>
    cases labels' with
    | nil => exact absurd (List.cons.inj h).2 (enumeration_ne_nil label labels)
    | cons label' labels' =>
      obtain ⟨hfirst, hrest⟩ := List.cons.inj h
      obtain ⟨rfl, rfl⟩ := ih hrest
      exact ⟨(String.append_left_inj _).1 hfirst, rfl⟩

theorem listedWords_inj (h : ∀ label ∈ labels, label ≠ "") (h' : ∀ label ∈ labels', label ≠ "")
    (heq : listedWords labels = listedWords labels') : labels = labels' := by
  have hne : ∀ label : String, label ≠ "" → "[" ++ label ≠ "[" := by
    intro label hlabel hbracket
    exact hlabel (String.append_eq_left_iff.1 hbracket)
  cases labels with
  | nil =>
    cases labels' with
    | nil => rfl
    | cons label' labels' =>
      exact absurd (enumeration_inj heq).1.symm (hne label' (h' label' List.mem_cons_self))
  | cons label labels =>
    cases labels' with
    | nil => exact absurd (enumeration_inj heq).1 (hne label (h label List.mem_cons_self))
    | cons label' labels' =>
      obtain ⟨hfirst, rfl⟩ := enumeration_inj heq
      rw [(String.append_right_inj "[").1 hfirst]

/-- Whether the message of a rule lists labels. -/
def lists : Rule → Bool
  | multipleRunning | stopped | criticalRestarts | warningRestarts => true
  | healthySingleton | quiet | noneRunning | fallback => false

/-- Messages of one status with the same words are of the same rule, or list nothing. -/
theorem eq_or_silent_of_words_eq {t : Thresholds} {r r' : Rule} (hstatus : r.status = r'.status)
    (h : r.words t labels = r'.words t labels') :
    r = r' ∨ (r.lists = false ∧ r'.lists = false) := by
  -- the openings of two rules of one status differ within their first words
  cases r <;> cases r' <;> simp_all [status, lists, words, restartWords]

/-- The words of a message tell the labels that it lists. -/
theorem labels_eq_of_words_eq {t : Thresholds} {r : Rule} (hlists : r.lists = true)
    (h : ∀ label ∈ labels, label ≠ "") (h' : ∀ label ∈ labels', label ≠ "")
    (heq : r.words t labels = r.words t labels') : labels = labels' := by
  cases r with
  | healthySingleton | quiet | noneRunning | fallback => cases hlists
  | multipleRunning | stopped => exact listedWords_inj h h' (List.append_cancel_left heq)
  | criticalRestarts | warningRestarts =>
    exact listedWords_inj h h' (List.append_cancel_right (List.append_cancel_left heq))

end Reading

end Rule

/-! ## Labels of rows -/

namespace Row

theorem isBlank_of_mem_column {token : String} (h : ∀ c ∈ token.toList, Text.isBlank c = false) :
    ∀ c ∈ (column token).toList, Text.isBlank c = false := by
  unfold column
  split
  · exact List.forall_mem_nil _
  · exact h

/-- The label of a row that was read is one word. -/
theorem isWord_label {line : String} {row : Row} (h : ofLine? line = some row) :
    Chars.IsWord row.label.toList := by
  obtain ⟨-, _, _, _, node, hname, -, -, -, -, -, hnode, -, henode, -⟩ := ofTokens?_eq_some_iff.1 h
  have hname := Text.isBlank_of_mem_words (List.mem_of_getElem? hname)
  have hnode := isBlank_of_mem_column (Text.isBlank_of_mem_words (List.mem_of_getElem? hnode))
  rw [← henode] at hnode
  have hparenthesis : Chars.IsWord "(".toList := by decide
  have hfront : ∀ c ∈ (row.name ++ "(" ++ row.node).toList, Text.isBlank c = false := by
    simp only [String.toList_append, List.forall_mem_append]
    exact ⟨⟨hname, hparenthesis.2⟩, hnode⟩
  exact Text.isWord_append hfront (by decide)

end Row

/-! ## Verdicts -/

namespace Decides

variable {e : Evaluator} {set : MatchSet} {d : Decision}

theorem exists_row_of_mem_instances (h : Decides e set d) {label : String}
    (hlabel : label ∈ d.verdict.instances) : ∃ row ∈ set.rows, row.label = label := by
  have hfilter : ∀ {p : Row → Bool} {rows : List Row},
      label ∈ (rows.filter p).map Row.label → ∃ row ∈ rows, row.label = label := by
    intro p rows hmem
    obtain ⟨row, hrow, rfl⟩ := List.mem_map.1 hmem
    exact ⟨row, (List.mem_filter.1 hrow).1, rfl⟩
  cases h with
  | healthySingleton | quiet | noneRunning => cases hlabel
  | multipleRunning | stopped => exact hfilter hlabel
  | criticalRestarts | warningRestarts =>
    obtain ⟨row, hrow, rfl⟩ := hfilter hlabel
    exact ⟨row, (List.mem_filter.1 hrow).1, rfl⟩

theorem instances_of_silent (h : Decides e set d) (hsilent : d.rule.lists = false) :
    d.verdict.instances = [] := by
  cases h with
  | healthySingleton | quiet | noneRunning => rfl
  | multipleRunning | stopped | criticalRestarts | warningRestarts => cases hsilent

theorem isWord_of_mem_instances (h : Decides e set d)
    (hlabels : ∀ row ∈ set.rows, Chars.IsWord row.label.toList) :
    ∀ label ∈ d.verdict.instances, Chars.IsWord label.toList := by
  intro label hlabel
  obtain ⟨row, hrow, rfl⟩ := h.exists_row_of_mem_instances hlabel
  exact hlabels row hrow

/-- The words of a verdict's message. -/
theorem words_message (h : Decides e set d)
    (hlabels : ∀ row ∈ set.rows, Chars.IsWord row.label.toList) :
    Text.words d.verdict.message = d.rule.status.label :: "-" ::
      (Text.words e.subject ++ d.rule.words e.thresholds d.verdict.instances) := by
  have hinstances := h.isWord_of_mem_instances hlabels
  rw [Evaluator.verdict_of_decides h, Verdict.words_ofText]
  exact congrArg _ (congrArg _ (Rule.words_text e.subject e.thresholds hinstances d.rule))

/-- Two decisions of one evaluator whose rules have one status and whose messages have the same
words list the same labels. -/
theorem instances_eq {set' : MatchSet} {d' : Decision} (h : Decides e set d)
    (h' : Decides e set' d') (hlabels : ∀ row ∈ set.rows, Chars.IsWord row.label.toList)
    (hlabels' : ∀ row ∈ set'.rows, Chars.IsWord row.label.toList)
    (hstatus : d.rule.status = d'.rule.status)
    (hwords : d.rule.words e.thresholds d.verdict.instances =
      d'.rule.words e.thresholds d'.verdict.instances) :
    d.verdict.instances = d'.verdict.instances := by
  have hne : ∀ {labels : List String}, (∀ label ∈ labels, Chars.IsWord label.toList) →
      ∀ label ∈ labels, label ≠ "" := by
    rintro labels hwords label hlabel rfl
    exact (hwords "" hlabel).1 rfl
  rcases Rule.eq_or_silent_of_words_eq hstatus hwords with hsame | ⟨hsilent, hsilent'⟩
  · cases hlists : d.rule.lists with
    | true =>
      rw [← hsame] at hwords
      exact Rule.labels_eq_of_words_eq hlists (hne (h.isWord_of_mem_instances hlabels))
        (hne (h'.isWord_of_mem_instances hlabels')) hwords
    | false => rw [h.instances_of_silent hlists, h'.instances_of_silent (hsame ▸ hlists)]
  · rw [h.instances_of_silent hsilent, h'.instances_of_silent hsilent']

end Decides

theorem Status.label_inj {s s' : Status} (h : s.label = s'.label) : s = s' := by
  have hs := ofLabel?_label s
  rw [h, ofLabel?_label] at hs
  exact (Option.some.inj hs).symm

namespace Evaluator

variable {e : Evaluator}

theorem evaluate_eq_of_line_eq {set set' : MatchSet}
    (hlabels : ∀ row ∈ set.rows, Chars.IsWord row.label.toList)
    (hlabels' : ∀ row ∈ set'.rows, Chars.IsWord row.label.toList)
    (hline : (e.evaluate set).line = (e.evaluate set').line) :
    e.evaluate set = e.evaluate set' := by
  have hd := decides_judge e set
  have hd' := decides_judge e set'
  have hwords := congrArg Text.words hline
  rw [Verdict.line, Verdict.line, Text.words_oneLine, Text.words_oneLine, evaluate, evaluate,
    hd.words_message hlabels, hd'.words_message hlabels'] at hwords
  obtain ⟨hlabel, htail⟩ := List.cons.inj hwords
  have hstatus := Status.label_inj hlabel
  have hrule := List.append_cancel_left (List.cons.inj htail).2
  have hinstances := hd.instances_eq hd' hlabels hlabels' hstatus hrule
  rw [evaluate, evaluate, verdict_of_decides hd, verdict_of_decides hd', Rule.text_eq, Rule.text_eq,
    hrule, hstatus, hinstances]

/-- Two listings whose verdicts are reported on the same line have the same verdict: the line keeps
the exit status, and every listed label with its place and number. -/
theorem verdict_of_line (e : Evaluator) (text text' : String) (ids ids' : Identities)
    (h : (e.checkListing text ids).render .text = (e.checkListing text' ids').render .text) :
    (e.checkListing text ids).status.exitCode = (e.checkListing text' ids').status.exitCode ∧
      (e.checkListing text ids).instances = (e.checkListing text' ids').instances ∧
      (e.checkListing text ids).message = (e.checkListing text' ids').message := by
  have hlabels : ∀ (text : String) (ids : Identities),
      ∀ row ∈ (MatchSet.select (Row.ofListing text) ids).rows, Chars.IsWord row.label.toList := by
    intro text ids row hrow
    obtain ⟨line, -, hline⟩ := List.mem_filterMap.1 (List.mem_filter.1 hrow).1
    exact Row.isWord_label hline
  have hverdict : e.checkListing text ids = e.checkListing text' ids' :=
    evaluate_eq_of_line_eq (hlabels text ids) (hlabels text' ids') h
  rw [hverdict]
  exact ⟨rfl, rfl, rfl⟩

/-- A subject that reads like the end of a message. -/
def oddEvaluator : Evaluator := { subject := " is running\twell. [" }

/-- Two pods of a node, one of them with a comma and brackets in its name. -/
def commaText : String :=
  "a,](n1)., 3/3 Running 0 1d 10.0.0.1 n1 <none> <none>\n" ++
    "b 3/3 Running 0 1d 10.0.0.1 n1 <none> <none>\n"

/-- The same pods with other blanks, and a line that is no pod line. -/
def noisyText : String :=
  "a,](n1)., 3/3\u3000running 0 1d - n1 - -\r\nerror: timeout\n" ++
    "b 3/3 Running 0 1d <none> n1 <none> <none>"

def commaLabels : List String := ["a,](n1).,(n1)", "b(n1)"]

def commaVerdict : Verdict :=
  .ofText .critical (Rule.multipleRunning.text oddEvaluator.subject {} commaLabels) commaLabels

theorem verdict_of_line_noisyText :
    (oddEvaluator.checkListing commaText ⟨["10.0.0.1"]⟩).render .text =
      (oddEvaluator.checkListing noisyText ⟨["n1"]⟩).render .text ∧
    (oddEvaluator.checkListing commaText ⟨["10.0.0.1"]⟩).instances =
      (oddEvaluator.checkListing noisyText ⟨["n1"]⟩).instances := by
  have hcomma : oddEvaluator.checkListing commaText ⟨["10.0.0.1"]⟩ = commaVerdict := by
    decide +kernel
  have hnoisy : oddEvaluator.checkListing noisyText ⟨["n1"]⟩ = commaVerdict := by
    decide +kernel
  have hline : (oddEvaluator.checkListing commaText ⟨["10.0.0.1"]⟩).render .text =
      (oddEvaluator.checkListing noisyText ⟨["n1"]⟩).render .text := by rw [hcomma, hnoisy]
  obtain ⟨-, hinstances, -⟩ := verdict_of_line oddEvaluator commaText noisyText _ _ hline
  exact ⟨hline, hinstances⟩

end Evaluator

end NodeHealth
