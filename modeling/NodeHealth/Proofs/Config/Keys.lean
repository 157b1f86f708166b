import NodeHealth.Config.Document

/-!
# A configuration by its keys

A configuration is looked at through the keys of its document: `valueOf` is the value that it has
for a key, and `valueAt` the value that a table has at a path.

* `ofTable?_of_values`: a table says the configuration that has its values, and the default values
  where it has none.
-/

namespace NodeHealth.Config

open Toml (Value Table)

/-! ## Keys -/

/-- The keys of a configuration document. -/
inductive Key where
  | binary
  | kubeconfig
  | podNamespace
  | selector
  | timeout
  | warn
  | crit
  | subject
  | nameStart
  | table
  | sources
  deriving DecidableEq, Repr

/-- The section of a key, and its name there. -/
def Key.path : Key → String × String
  | binary => ("kubectl", "binary")
  | kubeconfig => ("kubectl", "kubeconfig")
  | podNamespace => ("kubectl", "namespace")
  | selector => ("kubectl", "selector")
  | timeout => ("kubectl", "timeout")
  | warn => ("thresholds", "warn")
  | crit => ("thresholds", "crit")
  | subject => ("check", "subject")
  | nameStart => ("check", "name_prefix")
  | table => ("mounts", "table")
  | sources => ("mounts", "sources")

/-- The value that a configuration has for a key. A path that is absent has none. -/
def valueOf (c : Config) : Key → Option Value
  | .binary => some (.text c.kubectl.binary)
  | .kubeconfig => c.kubectl.kubeconfig.map .text
  | .podNamespace => some (.text c.kubectl.podNamespace)
  | .selector => some (.text c.kubectl.selector)
  | .timeout => some (.text c.kubectl.timeout)
  | .warn => some (.integer c.thresholds.warn.toNat)
  | .crit => some (.integer c.thresholds.crit.toNat)
  | .subject => some (.text c.check.subject)
  | .nameStart => some (.text c.check.nameStart)
  | .table => some (.text c.mounts.table)
  | .sources => some (.array (c.mounts.sources.map .text))

theorem valueOf_eq_none_iff {c : Config} {key : Key} :
    c.valueOf key = none ↔ key = .kubeconfig ∧ c.kubectl.kubeconfig = none := by
  cases key <;> simp [valueOf]

/-! ## Tables with sections -/

/-- The value of a key in a table whose sections are tables. -/
def valueAt (t : Table) (path : String × String) : Option Value :=
  match t.get? path.1 with
  | some (.table _ entries) => Table.get? path.2 entries
  | _ => none

def sectionNames : List String := ["kubectl", "thresholds", "check", "mounts"]

/-- The sections that there are in a document are tables. -/
def HasSections (t : Table) : Prop :=
  ∀ name ∈ sectionNames, ∀ v ∈ t.get? name, ∃ origin entries, v = .table origin entries

theorem hasSections_of_forall {t : Table}
    (h : ∀ e ∈ t, e.1 ∈ sectionNames → ∃ origin entries, e.2 = .table origin entries) :
    HasSections t := by
  intro name hname v hv
  obtain ⟨l, r, rfl, -⟩ := List.lookup_eq_some_iff.1 (hv : t.lookup name = some v)
  exact h (name, v) (by simp) hname

/-! ## Reading -/

theorem text?_text (s : String) : text? (.text s) = some s := rfl

theorem count?_toNat (n : UInt32) : count? (.integer n.toNat) = some n := by
  have hn : n.toNat < UInt32.size := n.toNat_lt
  have hcast : (n.toNat : Int) = Int.ofNat n.toNat := rfl
  rw [hcast, count?, Numeral.word32OfInt?, if_pos hn, UInt32.ofNat_toNat]

theorem texts?_texts (ss : List String) : texts? (.array (ss.map .text)) = some ss := by
  rw [texts?]
  induction ss with
  | nil => rfl
  | cons s ss ih => simp [text?_text, ih]

/-- The values of a section of a document by its keys. -/
def entries (t : Table) (name : String) : Section := fun _ key => valueAt t (name, key)

/-- A part is read from the values that the document gives, also where it leaves out the section. -/
theorem part_eq_entries {α : Type} {read : Section → Option α} {default : α}
    (hempty : read (fun _ _ => none) = some default) {t : Table} {name : String}
    (htable : ∀ v ∈ t.get? name, ∃ origin entries, v = .table origin entries) :
    part read t name default = read (entries t name) := by
  cases hget : t.get? name with
  | none =>
    have hentries : entries t name = fun _ _ => none := by
      funext _ key
      simp [entries, valueAt, hget]
    simp [part, hget, hentries, hempty]
  | some v =>
    obtain ⟨origin, found, rfl⟩ := htable v hget
    have hentries : entries t name = fun _ key => Table.get? key found := by
      funext _ key
      simp [entries, valueAt, hget]
    simp [part, hget, hentries, sectionOf?]

section

variable {t : Table} {m : Config} (hsections : HasSections t)
  (hvalues : ∀ key : Key, m.valueOf key = (valueAt t key.path).or (({} : Config).valueOf key))

include hvalues in
/-- A key is read as what the configuration has for it, be it the value of the document or the
default. -/
theorem field_of_key (key : Key) {α : Type} {read : Value → Option α} {write : α → Value}
    (hread : ∀ x, read (write x) = some x) {i : Nat} {x default : α}
    (hx : m.valueOf key = some (write x))
    (hdefault : ({} : Config).valueOf key = some (write default)) :
    field read (entries t key.path.1) i key.path.2 default = some x := by
  have hvalue := hvalues key
  rw [hx, hdefault] at hvalue
  cases hgiven : valueAt t key.path with
  | none =>
    rw [hgiven, Option.none_or] at hvalue
    have hsame := congrArg (Option.bind · read) hvalue
    simpa [field, entries, hgiven, hread, eq_comm] using hsame
  | some v =>
    rw [hgiven, Option.some_or, Option.some.injEq] at hvalue
    simp [field, entries, hgiven, ← hvalue, hread]

include hvalues in
/-- A path may be absent both from the document and from the configuration. -/
theorem field_kubeconfig {i : Nat} :
    field (fun v => (text? v).map some) (entries t "kubectl") i "kubeconfig" none =
      some m.kubectl.kubeconfig := by
  have hvalue : m.kubectl.kubeconfig.map Value.text = valueAt t ("kubectl", "kubeconfig") := by
    have hkey := hvalues .kubeconfig
    rwa [valueOf, valueOf, Option.map_none, Option.or_none] at hkey
  rw [field, entries, ← hvalue]
  cases m.kubectl.kubeconfig <;> rfl

include hsections hvalues

theorem kubectl_of_values : part kubectlOf? t "kubectl" {} = some m.kubectl := by
  have hempty : kubectlOf? (fun _ _ => none) = some {} := rfl
  have hbinary : field text? (entries t "kubectl") 0 "binary" ({} : KubectlConfig).binary =
      some m.kubectl.binary := field_of_key hvalues .binary text?_text rfl rfl
  have hnamespace : field text? (entries t "kubectl") 2 "namespace"
      ({} : KubectlConfig).podNamespace = some m.kubectl.podNamespace :=
    field_of_key hvalues .podNamespace text?_text rfl rfl
  have hselector : field text? (entries t "kubectl") 3 "selector" ({} : KubectlConfig).selector =
      some m.kubectl.selector := field_of_key hvalues .selector text?_text rfl rfl
  have htimeout : field text? (entries t "kubectl") 4 "timeout" ({} : KubectlConfig).timeout =
      some m.kubectl.timeout := field_of_key hvalues .timeout text?_text rfl rfl
  rw [part_eq_entries hempty (hsections "kubectl" (by simp [sectionNames])), kubectlOf?]
  simp only [hbinary, field_kubeconfig hvalues, hnamespace, hselector, htimeout]
  rfl

theorem thresholds_of_values : part thresholdsOf? t "thresholds" {} = some m.thresholds := by
  have hempty : thresholdsOf? (fun _ _ => none) = some {} := rfl
  have hwarn : field count? (entries t "thresholds") 0 "warn" ({} : Thresholds).warn =
      some m.thresholds.warn := field_of_key hvalues .warn count?_toNat rfl rfl
  have hcrit : field count? (entries t "thresholds") 1 "crit" ({} : Thresholds).crit =
      some m.thresholds.crit := field_of_key hvalues .crit count?_toNat rfl rfl
  rw [part_eq_entries hempty (hsections "thresholds" (by simp [sectionNames])), thresholdsOf?]
  simp only [hwarn, hcrit]
  rfl

theorem check_of_values : part checkOf? t "check" {} = some m.check := by
  have hempty : checkOf? (fun _ _ => none) = some {} := rfl
  have hsubject : field text? (entries t "check") 0 "subject" ({} : CheckConfig).subject =
      some m.check.subject := field_of_key hvalues .subject text?_text rfl rfl
  have hnameStart : field text? (entries t "check") 1 "name_prefix" ({} : CheckConfig).nameStart =
      some m.check.nameStart := field_of_key hvalues .nameStart text?_text rfl rfl
  rw [part_eq_entries hempty (hsections "check" (by simp [sectionNames])), checkOf?]
  simp only [hsubject, hnameStart]
  rfl

theorem mounts_of_values : part mountsOf? t "mounts" {} = some m.mounts := by
  have hempty : mountsOf? (fun _ _ => none) = some {} := rfl
  have htable : field text? (entries t "mounts") 0 "table" ({} : MountsConfig).table =
      some m.mounts.table := field_of_key hvalues .table text?_text rfl rfl
  have hsources : field texts? (entries t "mounts") 1 "sources" ({} : MountsConfig).sources =
      some m.mounts.sources := field_of_key hvalues .sources texts?_texts rfl rfl
  rw [part_eq_entries hempty (hsections "mounts" (by simp [sectionNames])), mountsOf?]
  simp only [htable, hsources]
  rfl

/-- A table says the configuration that has its values, and the defaults where it has none. -/
theorem ofTable?_of_values : ofTable? t = some m := by
  rw [ofTable?]
  simp only [kubectl_of_values hsections hvalues, thresholds_of_values hsections hvalues,
    check_of_values hsections hvalues, mounts_of_values hsections hvalues]
  rfl

end

end NodeHealth.Config
