import NodeHealth.Program
import NodeHealth.Proofs.Json.Value
import NodeHealth.Proofs.Text.OneLine

/-!
# What a report says

A report is one line that names a status, and the run exits with that status. A line of text names
it by its first word, a JSON line by the members of the object that it holds (`Format.Names`).

* `Verdict.ofText_labelled`: a verdict that was made from a text begins with its label.
* `Output.reports_ofVerdict`: such a verdict is reported on one line, which names its status, in
  either form and whatever its message and instances hold.
-/

namespace NodeHealth

/-- The value of the only member of an object with a key. -/
def Json.get? (j : Json) (key : String) : Option Json :=
  match j with
  | .object members =>
    match members.filter fun m => text? (.string m.1) == some key with
    | [(_, value)] => some value
    | _ => none
  | _ => none

/-- A line of text names a status: its first word is the label, and a dash follows. -/
structure Status.Heads (s : Status) (line : String) : Prop where
  first : (Text.words line).head? = some s.label
  dash : (s.label ++ " -").toList <+: line.toList

/-- A JSON line names a status: it holds an object with the exit status as code, the label as
status, and a message that names the status as a line of text does. -/
structure Status.IsHeld (s : Status) (j : Json) : Prop where
  code : j.get? "code" = some (.number (Numeral.digits s.exitCode).toList)
  status : (j.get? "status").bind Json.text? = some s.label
  message : ∃ message, (j.get? "message").bind Json.text? = some message ∧ s.Heads message

/-- A line names a status. -/
def Format.Names (s : Status) (line : String) : Format → Prop
  | .text => s.Heads line
  | .json => ∃ j, Json.ofText? line = some j ∧ s.IsHeld j

/-- A run left one line that names a status, and exits with that status. -/
structure Output.Reports (o : Output) (f : Format) (s : Status) : Prop where
  line : ∃ line, o.stdout = line ++ "\n" ∧ '\n' ∉ line.toList ∧ '\r' ∉ line.toList ∧ f.Names s line
  exit : o.exit = s.exitCode
  exit_le : o.exit ≤ 3

theorem Status.exitCode_le (s : Status) : s.exitCode ≤ 3 := by
  cases s <;> decide

/-! ## Verdicts that begin with their label -/

/-- The message of a verdict begins with the label of its status. -/
def Verdict.Labelled (v : Verdict) : Prop := ∃ text, v.message = v.status.label ++ " - " ++ text

theorem Verdict.ofText_labelled (s : Status) (text : String) (instances : List String) :
    (Verdict.ofText s text instances).Labelled := ⟨text, rfl⟩

theorem Status.words_label (s : Status) : Text.words s.label = [s.label] := by
  cases s <;> decide +kernel

namespace Verdict

variable {v : Verdict}

/-- The words of a message are the label, a dash and the words of the text behind them. -/
theorem words_ofText (s : Status) (text : String) (instances : List String) :
    Text.words (ofText s text instances).message = s.label :: "-" :: Text.words text := by
  have hmessage : (ofText s text instances).message = s.label ++ " " ++ ("-" ++ " " ++ text) := by
    simp [ofText, ← String.toList_inj]
  rw [hmessage, Text.words_append_space, Text.words_append_space, Status.words_label]
  rfl

theorem Labelled.words_message (h : v.Labelled) :
    ∃ ws, Text.words v.message = v.status.label :: "-" :: ws := by
  obtain ⟨text, htext⟩ := h
  refine ⟨Text.words text, ?_⟩
  rw [htext]
  exact words_ofText v.status text []

theorem Labelled.heads_line (h : v.Labelled) : v.status.Heads v.line := by
  obtain ⟨ws, hws⟩ := h.words_message
  constructor
  · rw [line, Text.words_oneLine, hws]
    rfl
  · have hspace : v.status.label ++ " -" = v.status.label ++ " " ++ "-" := by
      simp [← String.toList_inj]
    rw [hspace]
    exact Text.prefix_oneLine hws

/-! ## The report as JSON -/

theorem text?_ofString (s : String) : Json.text? (Json.ofString s) = some s := by
  simp [Json.text?, Json.ofString, Json.unescape?_escape]

theorem wellFormed_exitCode (s : Status) :
    (Json.number (Numeral.digits s.exitCode).toList).WellFormed := by
  cases s <;> exact .number rfl (List.all_eq_true.1 (by decide +kernel))

theorem isBody_of_key :
    ∀ key ∈ ["code", "instances", "message", "status"], Json.IsBody key.toList := by
  intro key hkey
  have hplain : Json.escape key.toList = key.toList := by
    revert key
    decide
  rw [← hplain]
  exact Json.isBody_escape _

theorem wellFormed_texts (ss : List String) :
    (Json.array (ss.map Json.ofString)).WellFormed := by
  refine .array fun j hj => ?_
  obtain ⟨s, -, rfl⟩ := List.mem_map.1 hj
  exact Json.wellFormed_ofString s

theorem wellFormed_report (v : Verdict) : v.report.WellFormed := by
  unfold report
  refine .object ?_ ?_
  · intro m hm
    simp only [List.mem_cons, List.not_mem_nil, or_false] at hm
    rcases hm with rfl | rfl | rfl | rfl
    all_goals exact isBody_of_key _ (by decide)
  · intro m hm
    simp only [List.mem_cons, List.not_mem_nil, or_false] at hm
    rcases hm with rfl | rfl | rfl | rfl
    · exact wellFormed_exitCode v.status
    · exact wellFormed_texts v.instances
    · exact Json.wellFormed_ofString v.line
    · exact Json.wellFormed_ofString v.status.label

theorem ofText?_render_json (v : Verdict) : Json.ofText? (v.render .json) = some v.report :=
  Json.ofText?_compact v.wellFormed_report

theorem get?_report_message (v : Verdict) :
    v.report.get? "message" = some (Json.ofString v.line) := rfl

theorem get?_report_status (v : Verdict) :
    v.report.get? "status" = some (Json.ofString v.status.label) := rfl

theorem Labelled.isHeld_report (h : v.Labelled) : v.status.IsHeld v.report where
  code := rfl
  status := by
    rw [get?_report_status, Option.bind_some, text?_ofString]
  message := by
    refine ⟨v.line, ?_, h.heads_line⟩
    rw [get?_report_message, Option.bind_some, text?_ofString]

theorem ne_of_mem_render {f : Format} {c x : Char} (hc : c ∈ (v.render f).toList)
    (hblank : Text.isBlank x = true) (hlow : x.toNat < 0x20) : c ≠ x := by
  rintro rfl
  cases f with
  | text =>
    have hspace := Text.eq_space_of_mem_oneLine hc hblank
    rw [hspace] at hlow
    exact absurd hlow (by decide)
  | json =>
    have hwrite : c ∈ v.report.write := by simpa [render, Json.compact] using hc
    have hhigh := Json.le_toNat_of_mem_write v.wellFormed_report hwrite
    omega

end Verdict

/-- A verdict is reported on one line that names its status. -/
theorem Output.reports_ofVerdict {v : Verdict} (h : v.Labelled) (f : Format) :
    (Output.ofVerdict v f).Reports f v.status where
  line := by
    refine ⟨v.render f, rfl, ?_, ?_, ?_⟩
    · exact fun hmem => Verdict.ne_of_mem_render hmem (by decide) (by decide) rfl
    · exact fun hmem => Verdict.ne_of_mem_render hmem (by decide) (by decide) rfl
    · cases f with
      | text => exact h.heads_line
      | json => exact ⟨v.report, v.ofText?_render_json, h.isHeld_report⟩
  exit := rfl
  exit_le := v.status.exitCode_le

end NodeHealth
