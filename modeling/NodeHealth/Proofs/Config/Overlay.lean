import Mathlib.Data.Finset.Basic
import NodeHealth.Proofs.Config.Judgement
import NodeHealth.Proofs.Config.Keys
import NodeHealth.Proofs.Toml.Document

/-!
# A document lies over the defaults

A document gives values to some of the keys of a configuration (`Sets`), in any order and beside any
others. What it says is the configuration that lies over the defaults there (`overlay`), and only
this is judged: a value is set against the default of another that the document leaves out.

* `Sets.ofTable?_eq`: what such a document says.
* `ofToml_of_sets`: what reading it comes to.
-/

namespace NodeHealth.Config

open Toml (Value Table)

/-- The configuration that has the values of another one for some keys and the default values for
the rest. -/
def overlay (c : Config) (keys : Finset Key) : Config where
  kubectl := {
    binary := if .binary ∈ keys then c.kubectl.binary else ({} : KubectlConfig).binary
    kubeconfig := if .kubeconfig ∈ keys then c.kubectl.kubeconfig else none
    podNamespace :=
      if .podNamespace ∈ keys then c.kubectl.podNamespace else ({} : KubectlConfig).podNamespace
    selector := if .selector ∈ keys then c.kubectl.selector else ({} : KubectlConfig).selector
    timeout := if .timeout ∈ keys then c.kubectl.timeout else ({} : KubectlConfig).timeout }
  thresholds := {
    warn := if .warn ∈ keys then c.thresholds.warn else ({} : Thresholds).warn
    crit := if .crit ∈ keys then c.thresholds.crit else ({} : Thresholds).crit }
  check := {
    subject := if .subject ∈ keys then c.check.subject else ({} : CheckConfig).subject
    nameStart := if .nameStart ∈ keys then c.check.nameStart else ({} : CheckConfig).nameStart }
  mounts := {
    table := if .table ∈ keys then c.mounts.table else ({} : MountsConfig).table
    sources := if .sources ∈ keys then c.mounts.sources else ({} : MountsConfig).sources }

theorem valueOf_overlay (c : Config) (keys : Finset Key) (key : Key) :
    (c.overlay keys).valueOf key =
      if key ∈ keys then c.valueOf key else ({} : Config).valueOf key := by
  cases key <;> simp only [overlay, valueOf] <;> split <;> rfl

/-- A document gives some keys, each in its section, the values that a configuration has for them,
and leaves out the others. What else it holds is left open. -/
structure Sets (t : Table) (keys : Finset Key) (c : Config) : Prop where
  hasSections : HasSections t
  values : ∀ key : Key, valueAt t key.path = if key ∈ keys then c.valueOf key else none

namespace Sets

variable {t : Table} {keys : Finset Key} {c : Config}

theorem ofTable?_eq (h : Sets t keys c) : ofTable? t = some (c.overlay keys) := by
  refine ofTable?_of_values h.hasSections fun key => ?_
  rw [valueOf_overlay, h.values]
  split
  · cases hvalue : c.valueOf key with
    | some v => rfl
    | none =>
      obtain ⟨rfl, -⟩ := valueOf_eq_none_iff.1 hvalue
      rfl
  · rfl

theorem ofToml_eq_iff {text : String} (hread : Table.ofText? text = some t) (h : Sets t keys c)
    {r : Except ConfigError Config} : ofToml text = r ↔ Judged (c.overlay keys) r := by
  have hsaid : said? text = some (c.overlay keys) := by
    rw [said?, hread, Option.bind_some, h.ofTable?_eq]
  exact Config.ofToml_eq_iff hsaid

end Sets

/-- A document that gives some keys the values of a configuration is judged as what lies over the
defaults. The document is any that is read as a table of such values, or any that is written in
lines. -/
theorem ofToml_of_sets (c : Config) (keys : Finset Key) :
    (∀ (text : String) (t : Table), Table.ofText? text = some t → Sets t keys c →
      ∀ r, ofToml text = r ↔ Judged (c.overlay keys) r) ∧
    ∀ (text : String) (d : Toml.Document), Toml.Written text.toList d.statements →
      Sets d.table keys c → ∀ r, ofToml text = r ↔ Judged (c.overlay keys) r := by
  constructor
  · intro text t hread hsets r
    exact hsets.ofToml_eq_iff hread
  · intro text d hwritten hsets r
    exact hsets.ofToml_eq_iff (Toml.Document.ofText?_of_written hwritten)

/-- A document that raises one threshold, among keys that mean nothing to a reader. -/
def loneWarn : Toml.Document where
  top := [("site", .text "b12")]
  sections := [("notes", [("crit", .integer 90)]),
    ("thresholds", [("muted", .boolean false), ("warn", .integer 25)])]
  names := by simp
  keys := by simp

def loneWarnText : String :=
  "site = \"b12\"\n\n[notes]\ncrit = 90\n# raised\n[thresholds]\nmuted = false\nwarn = 25\n"

theorem written_loneWarn : Toml.Written loneWarnText.toList loneWarn.statements := by
  refine .assignment (by decide : Toml.IsBareKey "site")
    (.text _ (show Toml.Quoted.Form.Suits "b12".toList .basic from trivial)) ?_
  refine .idle (.blank (List.forall_mem_nil _)) ?_
  refine .heading (by decide : Toml.IsBareKey "notes") ?_
  refine .assignment (by decide : Toml.IsBareKey "crit")
    (.count _ (by decide : 90 < Numeral.signedLimit)) ?_
  refine .idle (.comment (List.forall_mem_nil _)
    (List.all_eq_true.1 (rfl : " raised".toList.all Toml.Quoted.isPlain = true))) ?_
  refine .heading (by decide : Toml.IsBareKey "thresholds") ?_
  refine .assignment (by decide : Toml.IsBareKey "muted") (.boolean _ false) ?_
  refine .assignment (by decide : Toml.IsBareKey "warn")
    (.count _ (by decide : 25 < Numeral.signedLimit)) ?_
  exact .done

theorem sets_loneWarn : Sets loneWarn.table {.warn} { thresholds := { warn := 25 } } where
  hasSections := hasSections_of_forall (by
    simp [loneWarn, Toml.Document.table, Toml.sectionTable, sectionNames])
  values := by
    intro key
    cases key <;> rfl

/-- The table of a document that is one line with a dotted key. -/
def dottedWarn : Table := [("thresholds", .table .dotted [("warn", .integer 7)])]

theorem ofText?_dottedWarn : Table.ofText? "thresholds.warn = 7\n" = some dottedWarn := by
  with_unfolding_all rfl

theorem sets_dottedWarn : Sets dottedWarn {.warn} { thresholds := { warn := 7 } } where
  hasSections := hasSections_of_forall (by simp [dottedWarn, sectionNames])
  values := by
    intro key
    cases key <;> rfl

/-- One threshold alone is judged against the default of the other. -/
theorem ofToml_loneWarn :
    ofToml "thresholds.warn = 7\n" = .ok { thresholds := { warn := 7 } } ∧
      ofToml loneWarnText = .error (.invertedThresholds ⟨25, 10⟩) := by
  constructor
  · rw [(ofToml_of_sets _ _).1 _ dottedWarn ofText?_dottedWarn sets_dottedWarn]
    exact .accepted (by rfl) (by decide)
  · rw [(ofToml_of_sets _ _).2 loneWarnText loneWarn written_loneWarn sets_loneWarn]
    exact .thresholds (by rfl) (by decide)

end NodeHealth.Config
