import Mathlib.Logic.Relation
import NodeHealth.Proofs.Mount.Table

/-!
# The verdict on the mounts

The verdict is a function of the lines that stand for a mount of the driver: those with three fields
or more whose source is one of the driver's, up to case. Such a line gives one mount point, the
second field with its escapes read, and the probe is asked about that.

* `map_mountpoint_driverMounts`: the driver's mounts are those of its lines, one each, in the order
  of the table.
* `finds_evaluate`: healthy with the number of these lines, or the mount points that failed.
* `driverMounts_of_edits`: lines of no concern make no difference, whatever they hold.
* `driverMounts_of_respells`: neither does the order, the number of times or the case in which the
  sources of the driver are given.
-/

namespace NodeHealth

namespace Mount

/-- The mount point on a line: the second field with its escapes read. -/
def pointOf (line : String) : String := unescape ((Text.words line)[1]?.getD "")

/-- Ways to write the sources of the driver that mean the same sources. -/
inductive Respells : List String → List String → Prop
  | reorder {sources sources' : List String} : sources.Perm sources' → Respells sources sources'
  | repeated {source : String} {sources : List String} : source ∈ sources →
      Respells sources (source :: sources)
  | recased {source source' : String} (sources : List String) :
      Text.fold source = Text.fold source' → Respells (source :: sources) (source' :: sources)

end Mount

namespace MountCheck

open Mount (pointOf Respells)

variable {check : MountCheck} {isLive : String → Bool} {line table : String}

/-! ## The lines of the driver -/

/-- A line stands for a mount of the driver: it has three fields or more, and the first is one of
the sources, up to case. -/
def OwnsLine (check : MountCheck) (line : String) : Prop :=
  3 ≤ (Text.words line).length ∧
    ∃ source ∈ (Text.words line).head?, ∃ s ∈ check.sources, Text.fold s = Text.fold source

instance (check : MountCheck) (line : String) : Decidable (check.OwnsLine line) :=
  inferInstanceAs (Decidable (_ ∧ _))

/-- The lines of a table that stand for a mount of the driver, in order. -/
def ownLines (check : MountCheck) (table : String) : List String :=
  (Text.lines table).filter (check.OwnsLine ·)

/-- A line of no concern: it has fewer than three fields, or its source is none of the driver's. -/
def IsForeign (check : MountCheck) (line : String) : Prop :=
  (Text.words line).length < 3 ∨
    ∀ source ∈ (Text.words line).head?, ∀ s ∈ check.sources, Text.fold s ≠ Text.fold source

/-- The mount of a line, if the line stands for one of the driver's. -/
def ownLine? (check : MountCheck) (line : String) : Option Mount :=
  (Mount.ofLine? line).filter check.owns

theorem driverMounts_eq (check : MountCheck) (table : String) :
    check.driverMounts table = Text.readLines check.ownLine? table := by
  rw [driverMounts, Mount.ofTable, List.filter_filterMap]
  rfl

theorem readsLines_ownLine? : Text.ReadsLines check.ownLine? where
  empty := rfl
  returns line := by
    unfold ownLine?
    rw [Mount.readsLines_ofLine?.returns]

/-- Exactly the lines of the driver are taken for its mounts, each for one on its mount point. -/
theorem map_mountpoint_ownLine? (check : MountCheck) (line : String) :
    (check.ownLine? line).map Mount.mountpoint =
      if check.OwnsLine line then some (pointOf line) else none := by
  match hwords : Text.words line with
  | [] | [_] | [_, _] => simp [ownLine?, Mount.ofLine?, OwnsLine, hwords]
  | source :: field :: fstype :: _ =>
    simp [ownLine?, Mount.ofLine?, OwnsLine, pointOf, hwords, Option.filter, owns_iff,
      Mount.HasSource, apply_ite]

theorem not_ownsLine_of_isForeign (h : check.IsForeign line) : ¬ check.OwnsLine line := by
  rintro ⟨hfields, source, hsource, s, hs, hfold⟩
  rcases h with hshort | hother
  · omega
  · exact hother source hsource s hs hfold

theorem ownLine?_of_isForeign (h : check.IsForeign line) : check.ownLine? line = none := by
  have hpoint := check.map_mountpoint_ownLine? line
  rwa [if_neg (not_ownsLine_of_isForeign h), Option.map_eq_none_iff] at hpoint

/-- The driver's mounts are on the mount points of its lines, one each, in order. -/
theorem map_mountpoint_driverMounts (check : MountCheck) (table : String) :
    (check.driverMounts table).map Mount.mountpoint = (check.ownLines table).map pointOf := by
  have hlines : (check.ownLines table).map pointOf =
      (Text.lines table).filterMap fun line =>
        if check.OwnsLine line then some (pointOf line) else none := by
    rw [ownLines, ← List.filterMap_eq_map, List.filterMap_filter]
    simp
  rw [driverMounts_eq, Text.readLines, List.map_filterMap, hlines]
  simp only [map_mountpoint_ownLine?]

theorem length_driverMounts (check : MountCheck) (table : String) :
    (check.driverMounts table).length = (check.ownLines table).length := by
  have hpoints := congrArg List.length (map_mountpoint_driverMounts check table)
  simpa using hpoints

/-! ## The verdict -/

/-- The mount points of lines that are not live, one per line, in order. -/
def rejected (isLive : String → Bool) (lines : List String) : List String :=
  (lines.map pointOf).filter (!isLive ·)

/-- The verdict on a table whose lines of the driver are given. -/
inductive Finds (check : MountCheck) (isLive : String → Bool) (lines : List String) : Verdict → Prop
  | healthy (live : ∀ line ∈ lines, isLive (pointOf line) = true) :
      Finds check isLive lines {
        status := .ok
        message := "OK - " ++ check.subject ++ " mounts are healthy (" ++ toString lines.length ++
          " active)." }
  | failed (dead : ∃ line ∈ lines, isLive (pointOf line) = false) :
      Finds check isLive lines {
        status := .critical
        message := "CRITICAL - Found failed " ++ check.subject ++ " mount points at [" ++
          ", ".intercalate (rejected isLive lines) ++ "]."
        instances := rejected isLive lines }

theorem rejected_eq_nil_iff {lines : List String} :
    rejected isLive lines = [] ↔ ∀ line ∈ lines, isLive (pointOf line) = true := by
  simp [rejected, List.filter_eq_nil_iff]

theorem failed_eq (check : MountCheck) (isLive : String → Bool) (table : String) :
    check.failed isLive table = rejected isLive (check.ownLines table) := by
  rw [failed, map_mountpoint_driverMounts, rejected]

/-- The verdict is the one that the lines of the driver call for. -/
theorem finds_evaluate (check : MountCheck) (isLive : String → Bool) (table : String) :
    check.Finds isLive (check.ownLines table) (check.evaluate isLive table) := by
  have hok : ∀ text, Status.ok.label ++ (" - " ++ text) = "OK - " ++ text := by
    simp [← String.toList_inj, Status.label]
  have hcritical : ∀ text, Status.critical.label ++ (" - " ++ ("Found failed " ++ text)) =
      "CRITICAL - Found failed " ++ text := by
    simp [← String.toList_inj, Status.label]
  unfold evaluate
  simp only [failed_eq, length_driverMounts, List.isEmpty_iff]
  split
  · next hnone =>
    have hfinds : check.Finds isLive _ _ := .healthy (rejected_eq_nil_iff.1 hnone)
    simpa [Verdict.ofText, hok, String.append_assoc] using hfinds
  · next hsome =>
    have hdead : ∃ line ∈ check.ownLines table, isLive (pointOf line) = false := by
      simpa [rejected_eq_nil_iff] using hsome
    have hfinds : check.Finds isLive _ _ := .failed hdead
    simpa [Verdict.ofText, hcritical, String.append_assoc] using hfinds

theorem Finds.status_eq_ok_iff {lines : List String} {v : Verdict}
    (h : check.Finds isLive lines v) :
    v.status = .ok ↔ ∀ line ∈ lines, isLive (pointOf line) = true := by
  cases h with
  | healthy live => simpa using live
  | failed dead => simpa using dead

/-! ## What makes no difference -/

/-- Of the table and the sources only the driver's mounts matter. -/
theorem evaluate_congr {check' : MountCheck} {table' : String}
    (hsubject : check.subject = check'.subject)
    (hmounts : check.driverMounts table = check'.driverMounts table') :
    check.evaluate isLive table = check'.evaluate isLive table' := by
  unfold evaluate failed
  rw [hsubject, hmounts]

theorem driverMounts_append_feed (check : MountCheck) (table more : String) :
    check.driverMounts (table ++ "\n" ++ more) =
      check.driverMounts table ++ check.driverMounts more := by
  simp only [driverMounts_eq, readsLines_ownLine?.readLines_append_feed]

/-- Lines of no concern may be put into a table or taken out of it. -/
theorem driverMounts_of_edits {table' : String}
    (h : Relation.EqvGen (Text.DropsLine check.IsForeign) table table') :
    check.driverMounts table = check.driverMounts table' := by
  simp only [driverMounts_eq]
  exact readsLines_ownLine?.readLines_of_edits (fun _ => ownLine?_of_isForeign) h

theorem hasSource_iff_of_respells {sources sources' : List String} (h : Respells sources sources')
    (m : Mount) : m.HasSource sources ↔ m.HasSource sources' := by
  unfold Mount.HasSource
  cases h with
  | reorder hperm => simp only [hperm.mem_iff]
  | repeated hmem =>
    simp only [List.mem_cons, exists_eq_or_imp, iff_or_self]
    exact fun hfold => ⟨_, hmem, hfold⟩
  | recased sources hfold => simp only [List.mem_cons, exists_eq_or_imp, hfold]

theorem driverMounts_of_respells {sources : List String}
    (h : Relation.EqvGen Respells check.sources sources) (table : String) :
    check.driverMounts table = { check with sources := sources }.driverMounts table := by
  have hsame : Equivalence fun a b : List String =>
      ∀ m : Mount, m.HasSource a ↔ m.HasSource b :=
    ⟨fun _ _ => .rfl, fun h m => (h m).symm, fun h h' m => (h m).trans (h' m)⟩
  have hsources : ∀ m : Mount, m.HasSource check.sources ↔ m.HasSource sources :=
    hsame.eqvGen_iff.1 (h.mono fun _ _ => hasSource_iff_of_respells)
  unfold driverMounts
  refine List.filter_congr fun m _ => Bool.eq_iff_iff.2 ?_
  rw [owns_iff, owns_iff, hsources]

/-- The verdict on a table is healthy exactly if every mount point of the driver is live, and says
how many these are; otherwise it lists those that are not. Lines of no concern, and the way the
sources are written, change nothing, and a table behind another one adds its mounts to those of the
other. -/
theorem evaluate_table (check : MountCheck) (isLive : String → Bool) (table : String) :
    ((check.evaluate isLive table).status = .ok ↔
      ∀ line ∈ check.ownLines table, isLive (pointOf line) = true) ∧
    check.Finds isLive (check.ownLines table) (check.evaluate isLive table) ∧
    (∀ table', Relation.EqvGen (Text.DropsLine check.IsForeign) table table' →
      check.evaluate isLive table' = check.evaluate isLive table) ∧
    (∀ sources, Relation.EqvGen Respells check.sources sources →
      { check with sources := sources }.evaluate isLive table = check.evaluate isLive table) ∧
    ∀ more, check.driverMounts (table ++ "\n" ++ more) =
      check.driverMounts table ++ check.driverMounts more := by
  have hfinds := check.finds_evaluate isLive table
  refine ⟨hfinds.status_eq_ok_iff, hfinds, ?_, ?_, check.driverMounts_append_feed table⟩
  · intro table' hedits
    exact evaluate_congr rfl (driverMounts_of_edits hedits).symm
  · intro sources hrespells
    exact evaluate_congr rfl (driverMounts_of_respells hrespells table).symm

/-- The line of a mount of the driver. -/
def staleLine : String := "IRODSFS /mnt/irods\\040data fuse rw 0 0"

/-- That line between one of another file system and one that is cut off. -/
def staleTable : String := "sysfs /sys sysfs rw 0 0\n" ++ (staleLine ++ "\n" ++ "irodsfs\t/mnt")

theorem evaluate_staleTable :
    ({} : MountCheck).evaluate (· == "/mnt") staleTable =
      ⟨.critical,
        "CRITICAL - Found failed iRODS CSI Driver mount points at [/mnt/irods data].",
        ["/mnt/irods data"]⟩ ∧
    Relation.EqvGen (Text.DropsLine (IsForeign {})) staleTable staleLine ∧
    ({} : MountCheck).evaluate (· == "/mnt") staleLine =
      ({} : MountCheck).evaluate (· == "/mnt") staleTable ∧
    Relation.EqvGen Respells ["irodsfs"] ["irodsfs", "irodsFS"] ∧
    ({ sources := ["irodsfs", "irodsFS"] } : MountCheck).evaluate (· == "/mnt") staleTable =
      ({} : MountCheck).evaluate (· == "/mnt") staleTable := by
  have hforeign : Text.DropsLine (IsForeign {}) staleTable (staleLine ++ "\n" ++ "irodsfs\t/mnt") :=
    .complete "" "sysfs /sys sysfs rw 0 0" _ (.inl rfl) (by decide) (.inr (by decide +kernel))
  have hcut : Text.DropsLine (IsForeign {}) (staleLine ++ "\n" ++ "irodsfs\t/mnt") staleLine :=
    .last staleLine "irodsfs\t/mnt" (by decide) (.inl (by decide +kernel))
  have hedits := Relation.EqvGen.trans _ _ _ (.rel _ _ hforeign) (.rel _ _ hcut)
  have hrespells : Relation.EqvGen Respells ["irodsfs"] ["irodsfs", "irodsFS"] := by
    refine .trans _ ["irodsFS", "irodsfs"] _ (.trans _ ["irodsfs", "irodsfs"] _ ?_ ?_) ?_
    · exact .rel _ _ (.repeated List.mem_cons_self)
    · exact .rel _ _ (.recased ["irodsfs"] (by decide))
    · exact .rel _ _ (.reorder (.swap _ _ []))
  obtain ⟨-, -, hlines, hsources, -⟩ := evaluate_table {} (· == "/mnt") staleTable
  exact ⟨by decide +kernel, hedits, hlines _ hedits, hrespells, hsources _ hrespells⟩

end MountCheck

end NodeHealth
