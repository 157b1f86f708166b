import NodeHealth.Proofs.Config.Keys
import NodeHealth.Proofs.Toml.Document

/-!
# A written configuration reads back

A configuration is written as four sections (`sections`). The document is read in the steps in which
it was written: its lines say the statements of the sections (`says_toToml`), these describe a table
with one entry per section, and the table says the configuration (`ofTable?_sections`). Reading then
judges what it has read, so that `ofToml_toToml` gives the configuration back exactly when it is
valid, and otherwise the error of the judgement.
-/

namespace NodeHealth.Config

open Toml

/-! ## The table of a configuration -/

/-- The entries of the first section; a path that is absent has none. -/
def kubectlEntries (k : KubectlConfig) : Table :=
  ("binary", .text k.binary) :: (k.kubeconfig.toList.map fun path => ("kubeconfig", .text path)) ++
    [("namespace", .text k.podNamespace), ("selector", .text k.selector),
      ("timeout", .text k.timeout)]

def thresholdsEntries (t : Thresholds) : Table :=
  [("warn", .integer t.warn.toNat), ("crit", .integer t.crit.toNat)]

def checkEntries (c : CheckConfig) : Table :=
  [("subject", .text c.subject), ("name_prefix", .text c.nameStart)]

def mountsEntries (m : MountsConfig) : Table :=
  [("table", .text m.table), ("sources", .array (m.sources.map .text))]

/-- The sections of a configuration in the order in which they are written. -/
def sections (c : Config) : List (String × Table) :=
  [("kubectl", kubectlEntries c.kubectl), ("thresholds", thresholdsEntries c.thresholds),
    ("check", checkEntries c.check), ("mounts", mountsEntries c.mounts)]

theorem nodup_names (c : Config) : ((sections c).map Prod.fst).Nodup := by
  simp [sections]

theorem nodup_kubectlEntries (k : KubectlConfig) :
    ((kubectlEntries k).map Prod.fst).Nodup := by
  cases hk : k.kubeconfig <;> simp [kubectlEntries, hk]

theorem nodup_keys (c : Config) : ∀ s ∈ sections c, (s.2.map Prod.fst).Nodup := by
  intro s hs
  simp only [sections, List.mem_cons, List.not_mem_nil, or_false] at hs
  rcases hs with rfl | rfl | rfl | rfl
  · exact nodup_kubectlEntries c.kubectl
  · simp [thresholdsEntries]
  · simp [checkEntries]
  · simp [mountsEntries]

/-! ## Reading the table -/

theorem ofTable?_sections (c : Config) : ofTable? ((sections c).map sectionTable) = some c := by
  have hsections : HasSections ((sections c).map sectionTable) :=
    hasSections_of_forall (by simp [sections, sectionTable])
  refine ofTable?_of_values hsections fun key => ?_
  obtain ⟨⟨binary, kubeconfig, podNamespace, selector, timeout⟩, thresholds, check, mounts⟩ := c
  cases kubeconfig <;> cases key <;> rfl

/-! ## Reading the text -/

theorem denotes_writeText (depth : Nat) (s : String) :
    Denotes (value depth) (writeText s) (.text s) := by
  have hquoted := denotes_form depth (Quoted.Form.suits_ofText s.toList)
  rwa [String.ofList_toList] at hquoted

theorem denotes_writeCount (depth : Nat) (n : UInt32) :
    Denotes (value depth) (writeCount n) (.integer n.toNat) :=
  denotes_digits depth (Nat.lt_trans n.toNat_lt (by decide))

theorem denotes_writeTexts (depth : Nat) (ss : List String) :
    Denotes (value (depth + 1)) (writeTexts ss) (.array (ss.map .text)) := by
  match ss with
  | [] => exact denotes_row (List.forall_mem_nil _)
  | [s] =>
    have hrow := denotes_row (List.forall_mem_singleton.2 (denotes_writeText depth s) :
      ∀ p ∈ [(writeText s, Value.text s)], Denotes (value depth) p.1 p.2)
    simpa [writeTexts] using hrow
  | s :: next :: ss =>
    have hitems : ∀ p ∈ (s :: next :: ss).map fun s => (writeText s, Value.text s),
        Denotes (value depth) p.1 p.2 := by
      intro p hp
      obtain ⟨s, -, rfl⟩ := List.mem_map.1 hp
      exact denotes_writeText depth s
    have hlines := denotes_lines hitems
    rwa [List.flatMap_map, List.map_map] at hlines

/-- A path that is absent leaves no line. -/
theorem says_kubeconfig (kubeconfig : Option String) :
    Says (match kubeconfig with
        | some path => assignment "kubeconfig" (writeText path)
        | none => [])
      (kubeconfig.toList.map fun path => .assign ⟨[], "kubeconfig"⟩ (.text path)) := by
  cases kubeconfig with
  | none => exact says_nil
  | some path => exact says_assignment "kubeconfig" (by decide) (denotes_writeText _ path)

theorem says_kubectl (k : KubectlConfig) :
    Says (writeKubectl k) (sectionStatements ("kubectl", kubectlEntries k)) := by
  have hlines := (((((says_heading "kubectl" (by decide)).append
    (says_assignment "binary" (by decide) (denotes_writeText _ k.binary))).append
    (says_kubeconfig k.kubeconfig)).append
    (says_assignment "namespace" (by decide) (denotes_writeText _ k.podNamespace))).append
    (says_assignment "selector" (by decide) (denotes_writeText _ k.selector))).append
    (says_assignment "timeout" (by decide) (denotes_writeText _ k.timeout))
  obtain ⟨binary, kubeconfig, podNamespace, selector, timeout⟩ := k
  cases kubeconfig <;> exact hlines

theorem says_thresholds (t : Thresholds) :
    Says (writeThresholds t) (sectionStatements ("thresholds", thresholdsEntries t)) :=
  ((says_heading "thresholds" (by decide)).append
    (says_assignment "warn" (by decide) (denotes_writeCount _ t.warn))).append
    (says_assignment "crit" (by decide) (denotes_writeCount _ t.crit))

theorem says_check (c : CheckConfig) :
    Says (writeCheck c) (sectionStatements ("check", checkEntries c)) :=
  ((says_heading "check" (by decide)).append
    (says_assignment "subject" (by decide) (denotes_writeText _ c.subject))).append
    (says_assignment "name_prefix" (by decide) (denotes_writeText _ c.nameStart))

theorem says_mounts (m : MountsConfig) :
    Says (writeMounts m) (sectionStatements ("mounts", mountsEntries m)) :=
  ((says_heading "mounts" (by decide)).append
    (says_assignment "table" (by decide) (denotes_writeText _ m.table))).append
    (says_assignment "sources" (by decide) (denotes_writeTexts (nestingLimit - 2) m.sources))

theorem says_toToml (c : Config) :
    Says c.toToml.toList ((sections c).flatMap sectionStatements) := by
  have hsections := (((says_kubectl c.kubectl).append
    (says_blank.append (says_thresholds c.thresholds))).append
    (says_blank.append (says_check c.check))).append (says_blank.append (says_mounts c.mounts))
  rw [toToml, String.toList_ofList]
  simpa only [sections, List.flatMap_cons, List.flatMap_nil, List.nil_append, List.append_nil,
    List.append_assoc, List.cons_append] using hsections

/-- Reading undoes writing, up to the judgement that every reading passes. -/
theorem ofToml_toToml (c : Config) : ofToml c.toToml = c.validate.map fun _ => c := by
  have hmark : ∀ cs, c.toToml.toList ≠ '\uFEFF' :: cs := by
    intro cs h
    rw [toToml, String.toList_ofList] at h
    exact absurd (List.cons.inj h).1 (by decide)
  have htable : Table.ofText? c.toToml = some ((sections c).map sectionTable) := by
    rw [(says_toToml c).ofText?_eq hmark]
    exact Document.ofStatements?_statements ⟨[], sections c, nodup_names c, nodup_keys c⟩
  rw [ofToml, htable, Option.bind_some, ofTable?_sections]

end NodeHealth.Config
