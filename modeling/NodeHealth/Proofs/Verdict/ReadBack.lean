import NodeHealth.Proofs.Text.Numeral
import NodeHealth.Proofs.Verdict.Report
import NodeHealth.Verdict.Json

/-!
# Verdicts read back from JSON

A verdict has two JSON forms. The report is for monitoring: its message is the line of text that
would be reported otherwise, and its instances are always there. The stored form keeps the message
as it is and leaves empty instances out. `IsReport` and `IsStored` say what an object in either form
holds: its keys, in any order, and the values that they have.

* `render_json_holds`: the JSON report is one line that holds a report of the verdict, and it is the
  report of another verdict only if that has the same status, line of text and instances.
* `ofJson?_toJson`: the stored form is read as the verdict that it was made from.
* `ofJsonText?_compact`: so is its text, and whatever text a verdict was read from, its stored form
  stands for the same verdict.
-/

namespace NodeHealth

namespace Json

/-- The members of an object have these keys, each once, in any order. -/
def HasKeys (j : Json) (keys : List String) : Prop :=
  ∃ members, j = .object members ∧
    (members.map fun m => text? (.string m.1)).Perm (keys.map some)

/-- The whole number that a value is, if it is written as one. -/
def whole? : Json → Option Nat
  | .number text => Numeral.ofDigits? text
  | _ => none

end Json

namespace Verdict

variable {v w : Verdict} {j : Json}

/-- An object reports a verdict. -/
structure IsReport (v : Verdict) (j : Json) : Prop where
  keys : j.HasKeys ["code", "status", "message", "instances"]
  code : (j.get? "code").bind Json.whole? = some v.status.exitCode
  status : (j.get? "status").bind Json.text? = some v.status.label
  message : (j.get? "message").bind Json.text? = some (v.render .text)
  instances : (j.get? "instances").bind texts? = some v.instances

/-- The keys of the stored form. -/
def storedKeys (v : Verdict) : List String :=
  if v.instances = [] then ["code", "message"] else ["code", "message", "instances"]

/-- An object is the stored form of a verdict. -/
structure IsStored (v : Verdict) (j : Json) : Prop where
  keys : j.HasKeys v.storedKeys
  code : (j.get? "code").bind Json.text? = some v.status.label
  message : (j.get? "message").bind Json.text? = some v.message
  instances : (j.get? "instances").bind texts? =
    if v.instances = [] then none else some v.instances

theorem texts?_ofString (ss : List String) : texts? (.array (ss.map Json.ofString)) = some ss := by
  have hread : Json.text? ∘ Json.ofString = fun s => pure s := funext text?_ofString
  rw [texts?, List.mapM_map, hread, List.mapM_pure, List.map_id']
  rfl

/-! ## The report -/

theorem get?_report_code (v : Verdict) :
    v.report.get? "code" = some (.number (Nat.toDigits 10 v.status.exitCode)) := by
  rw [← Numeral.toList_digits]
  rfl

theorem get?_report_instances (v : Verdict) :
    v.report.get? "instances" = some (.array (v.instances.map Json.ofString)) := rfl

theorem hasKeys_report (v : Verdict) :
    v.report.HasKeys ["code", "status", "message", "instances"] := by
  refine ⟨_, rfl, ?_⟩
  have hkeys : (["code", "instances", "message", "status"].map some).Perm
      (["code", "status", "message", "instances"].map some) := by decide
  exact hkeys

theorem isReport_report (v : Verdict) : v.IsReport v.report where
  keys := v.hasKeys_report
  code := by
    rw [get?_report_code, Option.bind_some, Json.whole?, Numeral.ofDigits?_toDigits]
  status := by
    rw [get?_report_status, Option.bind_some, text?_ofString]
  message := by
    rw [get?_report_message, Option.bind_some, text?_ofString, render]
  instances := by
    rw [get?_report_instances, Option.bind_some, texts?_ofString]

/-- What an object reports is determined by the object. -/
theorem IsReport.eq (h : v.IsReport j) (hw : w.IsReport j) :
    v.status = w.status ∧ v.render .text = w.render .text ∧ v.instances = w.instances := by
  refine ⟨?_, ?_, ?_⟩
  · have hlabel : some v.status.label = some w.status.label := h.status.symm.trans hw.status
    have hstatus := congrArg (Option.bind · Status.ofLabel?) hlabel
    simpa [Status.ofLabel?_label] using hstatus
  · exact Option.some.inj (h.message.symm.trans hw.message)
  · exact Option.some.inj (h.instances.symm.trans hw.instances)

/-- The report is on one line, reads back as a report of the verdict, and is the report of those
verdicts only that have the same status, line of text and instances. -/
theorem render_json_holds (v : Verdict) :
    '\n' ∉ (v.render .json).toList ∧ '\r' ∉ (v.render .json).toList ∧
    (∃ j, Json.ofText? (v.render .json) = some j ∧ v.IsReport j) ∧
    ∀ w : Verdict, w.render .json = v.render .json ↔
      w.status = v.status ∧ w.render .text = v.render .text ∧ w.instances = v.instances := by
  refine ⟨?_, ?_, ⟨v.report, v.ofText?_render_json, v.isReport_report⟩, fun w => ⟨?_, ?_⟩⟩
  · exact fun hmem => ne_of_mem_render hmem (by decide) (by decide) rfl
  · exact fun hmem => ne_of_mem_render hmem (by decide) (by decide) rfl
  · intro hrender
    have hread : Json.ofText? (w.render .json) = some v.report := by
      rw [hrender, ofText?_render_json]
    have hreport : w.report = v.report := Option.some.inj (w.ofText?_render_json.symm.trans hread)
    exact (hreport ▸ w.isReport_report).eq v.isReport_report
  · rintro ⟨hstatus, hline, hinstances⟩
    have hreport : w.report = v.report := by
      unfold report
      rw [hstatus, hinstances, show w.line = v.line from hline]
    exact congrArg Json.compact hreport

/-! ## The stored form -/

theorem toJson_of_instances (h : v.instances ≠ []) : v.toJson =
    .object [("code".toList, Json.ofString v.status.label),
      ("message".toList, Json.ofString v.message),
      ("instances".toList, .array (v.instances.map Json.ofString))] := by
  unfold toJson
  rw [if_neg (by simpa using h)]

theorem toJson_of_no_instance (h : v.instances = []) : v.toJson =
    .object [("code".toList, Json.ofString v.status.label),
      ("message".toList, Json.ofString v.message)] := by
  unfold toJson
  rw [if_pos (by simpa using h)]

theorem isStored_toJson (v : Verdict) : v.IsStored v.toJson := by
  by_cases hnone : v.instances = []
  · have hkeys : v.storedKeys = ["code", "message"] := if_pos hnone
    rw [toJson_of_no_instance hnone]
    refine ⟨⟨_, rfl, ?_⟩, text?_ofString _, text?_ofString _, ?_⟩
    · rw [hkeys]
      exact .refl _
    · rw [if_pos hnone]
      rfl
  · have hkeys : v.storedKeys = ["code", "message", "instances"] := if_neg hnone
    rw [toJson_of_instances hnone]
    refine ⟨⟨_, rfl, ?_⟩, text?_ofString _, text?_ofString _, ?_⟩
    · rw [hkeys]
      exact .refl _
    · rw [if_neg hnone]
      exact texts?_ofString v.instances

theorem wellFormed_toJson (v : Verdict) : v.toJson.WellFormed := by
  by_cases hnone : v.instances = []
  · rw [toJson_of_no_instance hnone]
    refine .object ?_ ?_
    · simp only [List.forall_mem_cons]
      exact ⟨isBody_of_key _ (by decide), isBody_of_key _ (by decide), nofun⟩
    · simp only [List.forall_mem_cons]
      exact ⟨Json.wellFormed_ofString _, Json.wellFormed_ofString _, nofun⟩
  · rw [toJson_of_instances hnone]
    refine .object ?_ ?_
    · simp only [List.forall_mem_cons]
      exact ⟨isBody_of_key _ (by decide), isBody_of_key _ (by decide), isBody_of_key _ (by decide),
        nofun⟩
    · simp only [List.forall_mem_cons]
      exact ⟨Json.wellFormed_ofString _, Json.wellFormed_ofString _, wellFormed_texts _, nofun⟩

theorem ofJson?_label (s : Status) : Status.ofJson? (Json.ofString s.label) = some s := by
  cases s <;> decide +kernel

theorem ofParts?_written (s : Status) (message : String) (instances : Option (List String)) :
    ofParts? (Json.ofString s.label) (Json.ofString message)
      (instances.map fun ss => .array (ss.map Json.ofString)) =
        some ⟨s, message, instances.getD []⟩ := by
  unfold ofParts?
  cases instances <;> simp [ofJson?_label, text?_ofString, texts?_ofString]

/-- The stored form is read as the verdict that it was made from. -/
theorem ofJson?_toJson (v : Verdict) : ofJson? v.toJson = some v := by
  obtain ⟨status, message, instances⟩ := v
  unfold toJson
  split
  · next hnone =>
    obtain rfl : instances = [] := by simpa using hnone
    exact ofParts?_written status message none
  · exact ofParts?_written status message (some instances)

/-- The text of the stored form holds exactly the members that are to be stored, and is read as the
verdict; and a verdict that was read from any text is read from its own stored form too. -/
theorem ofJsonText?_compact :
    (∀ v : Verdict, ∃ j, Json.ofText? v.toJson.compact = some j ∧ v.IsStored j) ∧
    (∀ v : Verdict, ofJsonText? v.toJson.compact = some v) ∧
    ∀ text, (ofJsonText? text).bind (fun v => ofJsonText? v.toJson.compact) = ofJsonText? text := by
  have htext : ∀ v : Verdict, Json.ofText? v.toJson.compact = some v.toJson :=
    fun v => Json.ofText?_compact v.wellFormed_toJson
  have hread : ∀ v : Verdict, ofJsonText? v.toJson.compact = some v := by
    intro v
    rw [ofJsonText?, htext, Option.bind_some, ofJson?_toJson]
  refine ⟨fun v => ⟨v.toJson, htext v, v.isStored_toJson⟩, hread, fun text => ?_⟩
  simp only [hread, Option.bind_fun_some]

end Verdict

end NodeHealth
