import Mathlib.Logic.Relation
import NodeHealth.Hosts
import NodeHealth.Proofs.Text.Lines
import NodeHealth.Proofs.Text.OneLine

/-!
# What a hosts file says of a name

A hosts file is read line by line, and a name stands for everything on the lines that hold it. An
address is looked up letter for letter and a host name without regard to case, but what is found is
spelled as in the file.

* `mem_aliases_iff`: the aliases of a name are the texts on the lines that hold it.
* `aliases_of_blank`: a name with a blank in it has no aliases.
* `lines_of_edit`: comments and lines that do not begin with an address say nothing.
* `aliases_symmetric_and_local`: aliases are mutual, a name is among its own aliases, and every line
  is read on its own.
-/

namespace NodeHealth

namespace Text

theorem isBlank_of_letter {c : Char} (hlow : 65 ≤ c.toNat) (hhigh : c.toNat ≤ 122) :
    isBlank c = false := by
  simp only [isBlank, Bool.or_eq_false_iff, Bool.and_eq_false_iff, beq_eq_false_iff_ne,
    decide_eq_false_iff_not]
  omega

/-- Making letters small changes letters only, and no letter is a blank. -/
theorem isBlank_toLower (c : Char) : isBlank c.toLower = isBlank c := by
  by_cases hupper : c.val ≥ 'A'.val ∧ c.val ≤ 'Z'.val
  · have hlow : 65 ≤ c.toNat := UInt32.le_iff_toNat_le.1 hupper.1
    have hhigh : c.toNat ≤ 90 := UInt32.le_iff_toNat_le.1 hupper.2
    have hlower : c.toLower.val = c.val + ('a'.val - 'A'.val) := congrArg Char.val (dif_pos hupper)
    have hsum : (c.val + ('a'.val - 'A'.val)).toNat = (c.toNat + 32) % 2 ^ 32 :=
      UInt32.toNat_add _ _
    have hval : c.toLower.toNat = c.toNat + 32 := by
      show c.toLower.val.toNat = _
      rw [hlower, hsum, Nat.mod_eq_of_lt (by omega)]
    rw [isBlank_of_letter hlow (by omega), isBlank_of_letter (by omega) (by omega)]
  · have hsame : c.toLower = c := dif_neg hupper
    rw [hsame]

theorem isBlank_of_sameFolded {a b : String} (h : sameFolded a b = true)
    (ha : ∀ c ∈ a.toList, isBlank c = false) : ∀ c ∈ b.toList, isBlank c = false := by
  intro c hc
  have hfold : c.toLower ∈ fold a := by
    rw [sameFolded_iff.1 h]
    exact List.mem_map_of_mem hc
  obtain ⟨d, hd, hlower⟩ := List.mem_map.1 hfold
  rw [← isBlank_toLower, ← hlower, isBlank_toLower]
  exact ha d hd

end Text

namespace Hosts

/-- The lines of a hosts file that say something. -/
def lines (hosts : String) : List Line := Text.readLines Line.ofText? hosts

/-! ## Names on one line -/

namespace Line

/-- A text stands on a line, spelled as given. -/
def Holds (l : Line) (text : String) : Prop := text = l.address ∨ text ∈ l.names

variable {l : Line} {name text : String}

theorem mentions_iff :
    l.mentions name = true ↔ l.address = name ∨ ∃ n ∈ l.names, Text.sameFolded n name = true := by
  simp [mentions]

theorem mentions_of_holds (h : l.Holds text) : l.mentions text = true := by
  rw [mentions_iff]
  rcases h with rfl | hname
  · exact .inl rfl
  · exact .inr ⟨text, hname, Text.sameFolded_iff.2 rfl⟩

theorem exists_holds_of_mentions (h : l.mentions name = true) :
    ∃ text, l.Holds text ∧ Text.sameFolded text name = true := by
  rcases mentions_iff.1 h with rfl | ⟨n, hn, hsame⟩
  · exact ⟨l.address, .inl rfl, Text.sameFolded_iff.2 rfl⟩
  · exact ⟨n, .inr hn, hsame⟩

end Line

/-- The words of a line before its comment. -/
def spoken (line : String) : List String := Text.words (String.ofList (uncommented line.toList))

theorem ofText?_eq_some_iff {line : String} {l : Line} :
    Line.ofText? line = some l ↔
      spoken line = l.address :: l.names ∧ Address.isAddress l.address = true := by
  obtain ⟨address, names⟩ := l
  rw [Line.ofText?, spoken]
  split
  · next first others hwords =>
    rw [hwords, Option.ite_none_right_eq_some, Option.some.injEq, Line.mk.injEq, List.cons.injEq]
    constructor
    · rintro ⟨haddress, rfl, rfl⟩
      exact ⟨⟨rfl, rfl⟩, haddress⟩
    · rintro ⟨⟨rfl, rfl⟩, haddress⟩
      exact ⟨haddress, rfl, rfl⟩
  · next hwords =>
    rw [hwords]
    exact ⟨nofun, nofun⟩

theorem ofText?_congr {line line' : String} (h : spoken line = spoken line') :
    Line.ofText? line = Line.ofText? line' :=
  Option.ext fun l => by rw [ofText?_eq_some_iff, ofText?_eq_some_iff, h]

theorem mem_aliases_iff {hosts name text : String} :
    text ∈ aliases hosts name ↔ ∃ l ∈ lines hosts, l.mentions name = true ∧ l.Holds text := by
  simp only [aliases, lines, Text.readLines, Line.Holds, List.mem_flatMap, List.mem_filter,
    List.mem_cons, and_assoc]

/-- The file is looked at through its lines only. -/
theorem aliases_eq (hosts name : String) :
    aliases hosts name =
      ((lines hosts).filter (·.mentions name)).flatMap fun l => l.address :: l.names := rfl

theorem isBlank_of_holds {hosts text : String} {l : Line} (hl : l ∈ lines hosts)
    (h : l.Holds text) : ∀ c ∈ text.toList, Text.isBlank c = false := by
  obtain ⟨line, -, hread⟩ := List.mem_filterMap.1 hl
  have hword : text ∈ spoken line := by
    rw [(ofText?_eq_some_iff.1 hread).1]
    exact List.mem_cons.2 h
  exact Text.isBlank_of_mem_words hword

/-- Blanks separate the texts on a line, so that a name with a blank in it stands on none. -/
theorem aliases_of_blank {name : String} (h : ∃ c ∈ name.toList, Text.isBlank c = true)
    (hosts : String) : aliases hosts name = [] := by
  refine List.eq_nil_iff_forall_not_mem.2 fun text htext => ?_
  obtain ⟨l, hl, hname, -⟩ := mem_aliases_iff.1 htext
  obtain ⟨same, hsame, hfold⟩ := Line.exists_holds_of_mentions hname
  obtain ⟨c, hc, hblank⟩ := h
  have hword := Text.isBlank_of_sameFolded hfold (isBlank_of_holds hl hsame) c hc
  rw [hblank] at hword
  cases hword

/-! ## What says nothing -/

/-- A comment, or nothing at all. -/
def IsComment (text : String) : Prop :=
  '\n' ∉ text.toList ∧ (text = "" ∨ text.toList.head? = some '#')

/-- A line that says nothing: the first word before a `#`, if there is one, is no address. -/
def IsIdle (line : String) : Prop :=
  '\n' ∉ line.toList ∧ ∀ word ∈ (spoken line).head?, Address.isAddress word = false

theorem ofText?_eq_none {line : String} (h : IsIdle line) : Line.ofText? line = none := by
  cases hread : Line.ofText? line with
  | none => rfl
  | some l =>
    obtain ⟨hwords, haddress⟩ := ofText?_eq_some_iff.1 hread
    have hidle : Address.isAddress l.address = false := h.2 l.address (by rw [hwords]; rfl)
    rw [haddress] at hidle
    cases hidle

theorem uncommented_append_comment (line note : List Char) :
    uncommented (line ++ '#' :: note) = uncommented line := by
  have hstop : ('#' :: note).takeWhile (· != '#') = [] := rfl
  rw [uncommented, List.takeWhile_append, hstop, List.append_nil]
  split
  · next hall => exact ((List.takeWhile_prefix _).eq_of_length hall).symm
  · rfl

theorem ofText?_append_comment (line : String) {note : String} (h : IsComment note) :
    Line.ofText? (line ++ note) = Line.ofText? line := by
  rcases h.2 with rfl | hmark
  · rw [String.append_empty]
  · obtain ⟨rest, hnote⟩ := List.head?_eq_some_iff.1 hmark
    refine ofText?_congr ?_
    rw [spoken, String.toList_append, hnote, uncommented_append_comment, spoken]

theorem words_uncommented_return (line : List Char) :
    Chars.words (uncommented (line ++ ['\r'])) = Chars.words (uncommented line) := by
  rw [uncommented, List.takeWhile_append]
  split
  · next hall =>
    -- no `#` on the line: the carriage return is kept, and is a blank
    have hline : line.takeWhile (· != '#') = line := (List.takeWhile_prefix _).eq_of_length hall
    have hreturn : ['\r'].takeWhile (· != '#') = '\r' :: [] := rfl
    have hnone : Chars.words [] = [] := rfl
    rw [hreturn, Chars.words_append_blank _ _ (by decide), hnone, List.append_nil, uncommented,
      hline]
  · rfl

theorem readsLines_ofText? : Text.ReadsLines Line.ofText? where
  empty := rfl
  returns line := by
    have hreturn : (line ++ "\r").toList = line.toList ++ ['\r'] := String.toList_append
    refine ofText?_congr ?_
    rw [spoken, spoken, Text.words, Text.words, String.toList_ofList, String.toList_ofList, hreturn,
      words_uncommented_return]

/-- Changes of a hosts file in what it says to no one: a comment at the end of a line is put there,
taken away or replaced; a line that says nothing takes the place of another one, or is taken away
with the line feed behind it or, at the end of the file, with the one before it. -/
inductive Edit : String → String → Prop
  | comment (front note note' rest : String) : IsComment note → IsComment note' →
      Text.EndsLine rest → Edit (front ++ note ++ rest) (front ++ note' ++ rest)
  | replaced (front line line' rest : String) : Text.IsClosed front → IsIdle line → IsIdle line' →
      Text.EndsLine rest → Edit (front ++ line ++ rest) (front ++ line' ++ rest)
  | removed (front line rest : String) : Text.IsClosed front → IsIdle line →
      Edit (front ++ line ++ "\n" ++ rest) (front ++ rest)
  | removedLast (front line : String) : IsIdle line → Edit (front ++ "\n" ++ line) front

theorem lines_append_idle {front line : String} (hfront : Text.IsClosed front)
    (h : IsIdle line) : lines (front ++ line) = lines front := by
  rw [lines, readsLines_ofText?.readLines_append hfront,
    readsLines_ofText?.readLines_of_no_feed h.1, ofText?_eq_none h]
  exact List.append_nil _

theorem lines_append_comment (front : String) {note : String} (h : IsComment note) :
    lines (front ++ note) = lines front := by
  obtain ⟨closed, tail, rfl, hclosed, htail⟩ := Text.exists_closed_append front
  have hline : '\n' ∉ (tail ++ note).toList := by
    simpa [String.toList_append] using ⟨htail, h.1⟩
  rw [String.append_assoc, lines, lines, readsLines_ofText?.readLines_append hclosed,
    readsLines_ofText?.readLines_append hclosed, readsLines_ofText?.readLines_of_no_feed hline,
    readsLines_ofText?.readLines_of_no_feed htail, ofText?_append_comment tail h]

theorem lines_of_edit {hosts hosts' : String} (h : Edit hosts hosts') :
    lines hosts = lines hosts' := by
  have hend : ∀ (text : String) {rest : String}, Text.EndsLine rest →
      lines (text ++ rest) = lines text ++ lines rest :=
    fun text _ hrest => readsLines_ofText?.readLines_append_end text hrest
  have hdrop : ∀ {text text' : String}, Text.DropsLine IsIdle text text' →
      lines text = lines text' :=
    readsLines_ofText?.readLines_of_dropsLine fun _ => ofText?_eq_none
  cases h with
  | comment front note note' rest hnote hnote' hrest =>
    rw [hend _ hrest, hend _ hrest, lines_append_comment front hnote,
      lines_append_comment front hnote']
  | replaced front line line' rest hfront hline hline' hrest =>
    rw [hend _ hrest, hend _ hrest, lines_append_idle hfront hline,
      lines_append_idle hfront hline']
  | removed front line rest hfront hline =>
    exact hdrop (.complete front line rest hfront hline.1 hline)
  | removedLast _ line hline => exact hdrop (.last _ line hline.1 hline)

theorem lines_of_edits {hosts hosts' : String} (h : Relation.EqvGen Edit hosts hosts') :
    lines hosts = lines hosts' :=
  (eq_equivalence.comap lines).eqvGen_iff.1 (h.mono fun _ _ => lines_of_edit)

/-! ## Aliases -/

/-- Two names that one line speaks of know each other. -/
theorem exists_mem_aliases {hosts name text : String} {l : Line} (hl : l ∈ lines hosts)
    (hname : l.mentions name = true) (htext : l.mentions text = true) :
    ∃ b ∈ aliases hosts text, Text.sameFolded b name = true := by
  obtain ⟨b, hb, hsame⟩ := Line.exists_holds_of_mentions hname
  exact ⟨b, mem_aliases_iff.2 ⟨l, hl, htext, hb⟩, hsame⟩

/-- Each alias of a name has that name, in some spelling, among its own aliases; a name with aliases
is one of them; the aliases on the lines of one text behind another are those of the one behind
those of the other; and no change of comments or of lines without an address changes them. -/
theorem aliases_symmetric_and_local (hosts name : String) :
    (∀ a ∈ aliases hosts name, ∃ b ∈ aliases hosts a, Text.sameFolded b name = true) ∧
    (aliases hosts name ≠ [] → ∃ b ∈ aliases hosts name, Text.sameFolded b name = true) ∧
    (∀ more, aliases (hosts ++ "\n" ++ more) name = aliases hosts name ++ aliases more name) ∧
    ∀ hosts', Relation.EqvGen Edit hosts hosts' → aliases hosts' name = aliases hosts name := by
  refine ⟨?_, ?_, ?_, ?_⟩
  · intro a ha
    obtain ⟨l, hl, hname, hholds⟩ := mem_aliases_iff.1 ha
    exact exists_mem_aliases hl hname (Line.mentions_of_holds hholds)
  · intro hne
    obtain ⟨a, ha⟩ := List.exists_mem_of_ne_nil _ hne
    obtain ⟨l, hl, hname, -⟩ := mem_aliases_iff.1 ha
    exact exists_mem_aliases hl hname hname
  · intro more
    have hlines : lines (hosts ++ "\n" ++ more) = lines hosts ++ lines more :=
      readsLines_ofText?.readLines_append_feed hosts more
    rw [aliases_eq, hlines, List.filter_append, List.flatMap_append, aliases_eq, aliases_eq]
  · intro hosts' hedits
    rw [aliases_eq, ← lines_of_edits hedits, aliases_eq]

/-- A line with an address and two names. -/
def workerLine : String := "10.0.0.5 worker-5.example Worker-5 "

theorem aliases_workerLine :
    aliases (workerLine ++ "# rack 2") "WORKER-5" =
      ["10.0.0.5", "worker-5.example", "Worker-5"] ∧
    (∃ b ∈ aliases (workerLine ++ "# rack 2") "10.0.0.5", Text.sameFolded b "WORKER-5" = true) ∧
    (∃ b ∈ aliases (workerLine ++ "# rack 2") "WORKER-5", Text.sameFolded b "WORKER-5" = true) ∧
    aliases (workerLine ++ "\n" ++ "not-an-ip worker-5") "WORKER-5" =
      ["10.0.0.5", "worker-5.example", "Worker-5"] := by
  have haliases : aliases (workerLine ++ "# rack 2") "WORKER-5" =
      ["10.0.0.5", "worker-5.example", "Worker-5"] := by decide +kernel
  obtain ⟨hmutual, hself, -, hedits⟩ :=
    aliases_symmetric_and_local (workerLine ++ "# rack 2") "WORKER-5"
  have hcomment : Edit (workerLine ++ "# rack 2") workerLine := by
    have hdropped := Edit.comment workerLine "# rack 2" "" "" ⟨by decide, .inr (by decide)⟩
      ⟨by decide, .inl rfl⟩ (.inl rfl)
    simpa only [String.append_empty] using hdropped
  have hidle : Edit (workerLine ++ "\n" ++ "not-an-ip worker-5") workerLine :=
    .removedLast workerLine "not-an-ip worker-5" ⟨by decide, by decide +kernel⟩
  refine ⟨haliases, ?_, ?_, ?_⟩
  · exact hmutual "10.0.0.5" (by rw [haliases]; decide)
  · exact hself (by rw [haliases]; decide)
  · rw [← haliases]
    exact hedits _ (.trans _ _ _ (.rel _ _ hcomment) (.symm _ _ (.rel _ _ hidle)))

end Hosts

end NodeHealth
