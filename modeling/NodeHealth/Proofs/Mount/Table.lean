import Mathlib.Data.List.Basic
import NodeHealth.Mount.Check
import NodeHealth.Proofs.Mount.Escape
import NodeHealth.Proofs.Text.Lines

/-!
# Reading the table of the kernel

The kernel puts one space between the fields of a line and escapes a mount point, but of all blanks
it escapes only three; a path may hold the others, a carriage return or U+3000 say, and these reach
the table raw. The reader cuts a line at every blank.

* `ofLine?_line`: what is read of a line, whatever its mount point holds: the first two pieces
  between its raw blanks take the places of the mount point and the type.
* `driverMounts_table`: what is read of a table.
* `driverMounts_table_eq_iff`: the driver's mounts are read back if and only if none of their mount
  points holds a raw blank.
-/

namespace NodeHealth

namespace Mount

/-! ## The table -/

/-- A text that the table holds as it is: no blank and no backslash are in it. -/
def IsPlain (s : String) : Prop := Chars.IsWord s.toList ∧ '\\' ∉ s.toList

instance (s : String) : Decidable (IsPlain s) := inferInstanceAs (Decidable (_ ∧ _))

/-- One of the sources is that of the mount, up to the case of the letters A to Z. -/
def HasSource (sources : List String) (m : Mount) : Prop :=
  ∃ source ∈ sources, Text.fold source = Text.fold m.source

instance (sources : List String) (m : Mount) : Decidable (m.HasSource sources) :=
  inferInstanceAs (Decidable (∃ source ∈ sources, _))

/-- A mount in the kernel's table, with the fields behind it. -/
structure Entry where
  mount : Mount
  options : String
  source_plain : IsPlain mount.source
  mountpoint_ne : mount.mountpoint ≠ ""
  fstype_plain : IsPlain mount.fstype
  options_line : '\n' ∉ options.toList

/-- The line of an entry, without the line feed that ends it. -/
def Entry.line (e : Entry) : String :=
  e.mount.source ++ " " ++ escape e.mount.mountpoint ++ " " ++ e.mount.fstype ++ " " ++ e.options

/-- The table of the kernel. -/
def table (es : List Entry) : String := String.join (es.map fun e => e.line ++ "\n")

/-! ## Raw blanks -/

/-- A blank that the kernel does not escape. -/
def isRawBlank (c : Char) : Bool := Text.isBlank c && !isEscaped c

/-- The pieces of a mount point between its raw blanks. -/
def pieces (mountpoint : String) : List String :=
  ((Chars.splitWhen isRawBlank mountpoint.toList).filter (!·.isEmpty)).map String.ofList

theorem isBlank_of_mem_octal {c x : Char} (h : x ∈ octal c) : Text.isBlank x = false := by
  obtain ⟨b, -, hx⟩ := List.mem_flatMap.1 h
  have hdigit : ∀ n < 8, Text.isBlank (octalDigit n) = false := by decide
  have hb : b.toNat < 256 := b.toNat_lt
  simp only [escapeByte, List.mem_cons, List.not_mem_nil, or_false] at hx
  rcases hx with rfl | rfl | rfl | rfl
  · decide
  · exact hdigit _ (by omega)
  · exact hdigit _ (by omega)
  · exact hdigit _ (by omega)

theorem isBlank_of_mem_escapeChar {c x : Char} (hc : isRawBlank c = false) (h : x ∈ escapeChar c) :
    Text.isBlank x = false := by
  unfold escapeChar at h
  split at h
  · exact isBlank_of_mem_octal h
  · next hesc =>
    rw [List.mem_singleton.1 h]
    simpa [isRawBlank, hesc] using hc

theorem escapeChar_ne_nil (c : Char) : escapeChar c ≠ [] := by
  have hpos := c.utf8Size_pos
  rw [← String.length_utf8EncodeChar] at hpos
  unfold escapeChar octal
  split
  · cases hbytes : String.utf8EncodeChar c with
    | nil => simp [hbytes] at hpos
    | cons b bs => simp [escapeByte]
  · exact List.cons_ne_nil _ _

/-- An escaped text is cut where the text has raw blanks. -/
theorem splitWhen_escape (cs : List Char) :
    Chars.splitWhen Text.isBlank (cs.flatMap escapeChar) =
      (Chars.splitWhen isRawBlank cs).map (·.flatMap escapeChar) := by
  induction cs with
  | nil => rfl
  | cons c cs ih =>
    rw [List.flatMap_cons, Chars.splitWhen]
    split
    · next hc =>
      obtain ⟨hblank, hesc⟩ : Text.isBlank c = true ∧ isEscaped c = false := by
        simpa [isRawBlank] using hc
      rw [escapeChar, if_neg (Bool.eq_false_iff.1 hesc), List.singleton_append, Chars.splitWhen,
        if_pos hblank, ih]
      rfl
    · next hc =>
      have hword : ∀ x ∈ escapeChar c, Text.isBlank x = false :=
        fun _ hx => isBlank_of_mem_escapeChar (Bool.eq_false_iff.2 hc) hx
      cases hsplit : Chars.splitWhen isRawBlank cs with
      | nil => exact absurd hsplit (Chars.splitWhen_ne_nil _ cs)
      | cons piece pieces =>
        rw [hsplit] at ih
        rw [Chars.splitWhen_append_of_forall hword ih]
        rfl

theorem isEmpty_escape (cs : List Char) : (cs.flatMap escapeChar).isEmpty = cs.isEmpty := by
  cases cs with
  | nil => rfl
  | cons c cs =>
    rw [List.flatMap_cons]
    cases h : escapeChar c with
    | nil => exact absurd h (escapeChar_ne_nil c)
    | cons x xs => rfl

/-- The words of an escaped mount point are its pieces between raw blanks. -/
theorem words_escape (mountpoint : String) :
    Text.words (escape mountpoint) = (pieces mountpoint).map escape := by
  rw [Text.words, escape, String.toList_ofList, Chars.words, splitWhen_escape, List.filter_map,
    pieces, List.map_map, List.map_map]
  simp [Function.comp_def, isEmpty_escape, escape]

/-! ## One line -/

/-- What the reader sees in place of an entry. -/
def Entry.seen (e : Entry) : Option Mount :=
  match pieces e.mount.mountpoint with
  | [] => (Text.words e.options).head?.map fun word => ⟨e.mount.source, e.mount.fstype, word⟩
  | [only] => some ⟨e.mount.source, only, e.mount.fstype⟩
  | first :: second :: _ => some ⟨e.mount.source, first, escape second⟩

theorem IsPlain.unescape {s : String} (h : IsPlain s) : unescape s = s :=
  unescape_of_spelled (spelled_self h.2)

theorem words_line (e : Entry) :
    Text.words e.line = e.mount.source ::
      ((pieces e.mount.mountpoint).map escape ++ e.mount.fstype :: Text.words e.options) := by
  have hchars : e.line.toList = e.mount.source.toList ++ ' ' ::
      ((escape e.mount.mountpoint).toList ++ ' ' ::
        (e.mount.fstype.toList ++ ' ' :: e.options.toList)) := by
    simp [Entry.line, String.toList_append]
  rw [Text.words, hchars, Chars.words_append_blank _ _ (by decide),
    Chars.words_append_blank _ _ (by decide), Chars.words_append_blank _ _ (by decide),
    Chars.words_word e.source_plain.1, Chars.words_word e.fstype_plain.1, List.map_append,
    List.map_append, List.map_append, ← words_escape]
  simp [Text.words]

/-- What is read of a line. -/
theorem ofLine?_line (e : Entry) : ofLine? e.line = e.seen := by
  rw [ofLine?, words_line, Entry.seen]
  cases pieces e.mount.mountpoint with
  | nil =>
    cases Text.words e.options with
    | nil => rfl
    | cons word rest => simp [e.fstype_plain.unescape]
  | cons first rest =>
    cases rest with
    | nil => simp [unescape_escape]
    | cons second rest => simp [unescape_escape]

theorem isRawBlank_of_mem_pieces {mountpoint piece : String} (h : piece ∈ pieces mountpoint) :
    ∀ c ∈ piece.toList, isRawBlank c = false := by
  obtain ⟨cs, hcs, rfl⟩ := List.mem_map.1 h
  rw [String.toList_ofList]
  exact Chars.not_mem_of_mem_splitWhen (List.mem_filter.1 hcs).1

theorem pieces_of_forall {mountpoint : String} (hne : mountpoint ≠ "")
    (h : ∀ c ∈ mountpoint.toList, isRawBlank c = false) : pieces mountpoint = [mountpoint] := by
  have hsome : mountpoint.toList.isEmpty = false := by
    simpa using hne
  rw [pieces, Chars.splitWhen_of_forall h]
  simp [hsome]

/-- An entry is seen as it is exactly when its mount point has no raw blank. -/
theorem Entry.seen_eq_iff (e : Entry) :
    e.seen = some e.mount ↔ ∀ c ∈ e.mount.mountpoint.toList, isRawBlank c = false := by
  constructor
  · intro h
    rw [Entry.seen] at h
    split at h
    · obtain ⟨word, -, hword⟩ := Option.map_eq_some_iff.1 h
      have hpoint : e.mount.fstype = e.mount.mountpoint := congrArg Mount.mountpoint hword
      intro c hc
      rw [← hpoint] at hc
      simp [isRawBlank, e.fstype_plain.1.2 c hc]
    · next only hpieces =>
      have hpoint : only = e.mount.mountpoint := congrArg Mount.mountpoint (Option.some.inj h)
      have hmem : only ∈ pieces e.mount.mountpoint := by
        rw [hpieces]
        exact List.mem_cons_self
      rw [← hpoint]
      exact isRawBlank_of_mem_pieces hmem
    · next first _ _ hpieces =>
      have hpoint : first = e.mount.mountpoint := congrArg Mount.mountpoint (Option.some.inj h)
      have hmem : first ∈ pieces e.mount.mountpoint := by
        rw [hpieces]
        exact List.mem_cons_self
      rw [← hpoint]
      exact isRawBlank_of_mem_pieces hmem
  · intro h
    rw [Entry.seen, pieces_of_forall e.mountpoint_ne h]

theorem Entry.source_of_seen {e : Entry} {m : Mount} (h : e.seen = some m) :
    m.source = e.mount.source := by
  rw [Entry.seen] at h
  split at h
  · obtain ⟨word, -, rfl⟩ := Option.map_eq_some_iff.1 h
    rfl
  · rw [← Option.some.inj h]
  · rw [← Option.some.inj h]

/-! ## The table as a whole -/

theorem feed_notMem_escape (s : String) : '\n' ∉ (escape s).toList := by
  rw [escape, String.toList_ofList]
  intro h
  obtain ⟨c, -, hc⟩ := List.mem_flatMap.1 h
  unfold escapeChar at hc
  split at hc
  · exact absurd (isBlank_of_mem_octal hc) (by decide)
  · next hesc =>
    rw [← List.mem_singleton.1 hc] at hesc
    exact hesc (by decide)

theorem IsPlain.feed_notMem {s : String} (h : IsPlain s) : '\n' ∉ s.toList := by
  intro hmem
  exact absurd (h.1.2 '\n' hmem) (by decide)

theorem feed_notMem_line (e : Entry) : '\n' ∉ e.line.toList := by
  simp [Entry.line, String.toList_append, e.source_plain.feed_notMem, feed_notMem_escape,
    e.fstype_plain.feed_notMem, e.options_line]

theorem readsLines_ofLine? : Text.ReadsLines ofLine? where
  empty := rfl
  returns line := by rw [ofLine?, Text.words_append_return, ofLine?]

theorem ofTable_table (es : List Entry) : ofTable (table es) = es.filterMap Entry.seen := by
  induction es with
  | nil => rfl
  | cons e es ih =>
    have htable : table (e :: es) = e.line ++ "\n" ++ table es := by
      apply String.toList_injective
      simp [table, String.toList_join]
    calc ofTable (table (e :: es))
        = ofTable e.line ++ ofTable (table es) := by
          rw [htable]
          exact readsLines_ofLine?.readLines_append_feed e.line (table es)
      _ = (ofLine? e.line).toList ++ ofTable (table es) := by
          rw [← readsLines_ofLine?.readLines_of_no_feed (feed_notMem_line e)]
          rfl
      _ = (e :: es).filterMap Entry.seen := by
          rw [ofLine?_line, ih]
          cases hseen : e.seen <;> simp [hseen]

end Mount

namespace MountCheck

theorem owns_iff {check : MountCheck} {m : Mount} :
    check.owns m = true ↔ m.HasSource check.sources := by
  rw [owns, List.any_eq_true]
  simp only [Text.sameFolded_iff, Mount.HasSource]

/-- What the driver's mounts in a table are taken for. -/
theorem driverMounts_table (check : MountCheck) (es : List Mount.Entry) :
    check.driverMounts (Mount.table es) =
      (es.filter fun e => check.owns e.mount).filterMap Mount.Entry.seen := by
  have howns : ∀ e : Mount.Entry, e.seen.filter check.owns =
      if check.owns e.mount = true then e.seen else none := by
    intro e
    cases hseen : e.seen with
    | none => simp
    | some m =>
      have hsource : check.owns m = check.owns e.mount := by
        rw [owns, e.source_of_seen hseen, owns]
      simp [Option.filter, hsource]
  rw [driverMounts, Mount.ofTable_table, List.filter_filterMap, List.filterMap_filter]
  exact congrArg (List.filterMap · es) (funext howns)

/-- The driver's mounts are read back, all of them with all their fields and in the order of the
table, if and only if none of their mount points holds a raw blank. -/
theorem driverMounts_table_eq_iff (check : MountCheck) (es : List Mount.Entry) :
    check.driverMounts (Mount.table es) =
        (es.map Mount.Entry.mount).filter (fun m => m.HasSource check.sources) ↔
      ∀ e ∈ es, e.mount.HasSource check.sources →
        ∀ c ∈ e.mount.mountpoint.toList, Mount.isRawBlank c = false := by
  have howns : check.owns = fun m => decide (m.HasSource check.sources) :=
    funext fun m => Bool.eq_iff_iff.2 (by rw [owns_iff, decide_eq_true_iff])
  have hfilter : (es.map Mount.Entry.mount).filter check.owns =
      (es.filter fun e => check.owns e.mount).map Mount.Entry.mount := List.filter_map
  rw [← howns, driverMounts_table, hfilter, List.filterMap_eq_map_iff_forall_eq_some]
  simp only [List.mem_filter, Mount.Entry.seen_eq_iff, owns_iff, and_imp]

/-- A mount of the driver on a directory whose name holds an ideographic space. -/
def ideographicEntry : Mount.Entry where
  mount := ⟨"irodsfs", "/mnt/a\u3000b", "fuse"⟩
  options := "rw 0 0"
  source_plain := by decide +kernel
  mountpoint_ne := by decide
  fstype_plain := by decide +kernel
  options_line := by decide

/-- The name is cut at the space: the probe is asked about another directory. -/
theorem driverMounts_ideographicEntry :
    driverMounts {} (Mount.table [ideographicEntry]) = [⟨"irodsfs", "/mnt/a", "b"⟩] ∧
      ([ideographicEntry].map Mount.Entry.mount).filter (fun m => m.HasSource ["irodsfs"]) =
        [⟨"irodsfs", "/mnt/a\u3000b", "fuse"⟩] := by
  decide +kernel

end MountCheck

end NodeHealth
