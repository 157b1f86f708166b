import Mathlib.Logic.Relation
import NodeHealth.Proofs.Pod.Reading
import NodeHealth.Pod.MatchSet

/-!
# Selection by names

A list of texts gives names (`Identities.Gives`): what is left of each without the blanks around it,
unless that is nothing. The identities collected from the list are these names, so which rows are
selected depends on nothing else, and a row without ip and node is never selected.

* `Identities.contains_ofList`: the identities of a list are the names that it gives.
* `Identities.gives_iff_of_rewords`: order, repetition, blanks around a text and blank texts do not
  change the names.
* `Row.namedBy_depends_on_names`: what follows for the rows of a listing.
-/

namespace NodeHealth

namespace Identities

/-- A name of a list of texts: what is left of one of them without the blanks around it, if
anything is left. -/
def Gives (texts : List String) (name : String) : Prop :=
  name ≠ "" ∧ ∃ x ∈ texts, Text.trim x = name

instance (texts : List String) (name : String) : Decidable (Gives texts name) :=
  inferInstanceAs (Decidable (_ ∧ _))

variable {ids : Identities} {name : String} {texts : List String}

theorem gives_cons {text : String} :
    Gives (text :: texts) name ↔ (name ≠ "" ∧ Text.trim text = name) ∨ Gives texts name := by
  simp only [Gives, List.mem_cons, exists_eq_or_imp, and_or_left]

theorem gives_append {more : List String} :
    Gives (texts ++ more) name ↔ Gives texts name ∨ Gives more name := by
  simp only [Gives, List.mem_append, or_and_right, exists_or, and_or_left]

/-! ## Collecting names -/

theorem contains_empty : empty.contains name = false := rfl

theorem contains_iff : ids.contains name = true ↔ name ∈ ids.entries := by
  simp [contains]

theorem push_of_passed {text : String}
    (h : Text.trim text = "" ∨ ids.contains (Text.trim text) = true) : ids.push text = ids := by
  unfold push
  simp [h]

theorem push_of_new {text : String} (h : Text.trim text ≠ "")
    (hnew : ids.contains (Text.trim text) = false) :
    ids.push text = ⟨ids.entries ++ [Text.trim text]⟩ := by
  unfold push
  simp [h, hnew]

theorem contains_push {text : String} :
    (ids.push text).contains name = true ↔
      ids.contains name = true ∨ (name ≠ "" ∧ Text.trim text = name) := by
  by_cases hempty : Text.trim text = ""
  · rw [push_of_passed (.inl hempty)]
    rw [iff_self_or]
    rintro ⟨hne, rfl⟩
    exact absurd hempty hne
  cases hknown : ids.contains (Text.trim text) with
  | true =>
    rw [push_of_passed (.inr hknown), iff_self_or]
    rintro ⟨-, rfl⟩
    exact hknown
  | false =>
    rw [push_of_new hempty hknown, contains_iff, List.mem_append, List.mem_singleton, contains_iff,
      eq_comm (a := name)]
    refine or_congr_right ⟨?_, And.right⟩
    rintro rfl
    exact ⟨hempty, rfl⟩

theorem contains_extend :
    (ids.extend texts).contains name = true ↔ ids.contains name = true ∨ Gives texts name := by
  induction texts generalizing ids with
  | nil => simp [extend, Gives]
  | cons text texts ih =>
    have hstep : ids.extend (text :: texts) = (ids.push text).extend texts := rfl
    rw [hstep, ih, contains_push, gives_cons, or_assoc]

theorem contains_ofList : (ofList texts).contains name = true ↔ Gives texts name := by
  simp [ofList, contains_extend, contains_empty]

/-! ## Writing a list in another way -/

/-- Ways to write a list of texts that leave the names as they are. -/
inductive Rewords : List String → List String → Prop
  | reorder {texts texts' : List String} : texts.Perm texts' → Rewords texts texts'
  | repeated {text : String} {texts : List String} : text ∈ texts → Rewords texts (text :: texts)
  | padded (front back : List Char) (text : String) (texts : List String) : Chars.IsGap front →
      Chars.IsGap back →
      Rewords (text :: texts) (String.ofList (front ++ (text.toList ++ back)) :: texts)
  | blank (gap : List Char) (texts : List String) : Chars.IsGap gap →
      Rewords texts (String.ofList gap :: texts)

theorem trim_padded {front back : List Char} (hfront : Chars.IsGap front)
    (hback : Chars.IsGap back) (text : String) :
    Text.trim (String.ofList (front ++ (text.toList ++ back))) = Text.trim text := by
  rw [Text.trim, String.toList_ofList, Chars.trim_gap_append hfront, Chars.trim_append_gap hback,
    Text.trim]

theorem trim_gap {gap : List Char} (h : Chars.IsGap gap) : Text.trim (String.ofList gap) = "" := by
  have hnil := Chars.trim_append_gap h []
  rw [Text.trim, String.toList_ofList, ← List.nil_append gap, hnil]
  rfl

theorem Rewords.gives_iff {texts' : List String} (h : Rewords texts texts') :
    Gives texts name ↔ Gives texts' name := by
  cases h with
  | reorder hperm => exact and_congr_right fun _ => by simp only [hperm.mem_iff]
  | repeated hmem =>
    rw [gives_cons, iff_or_self]
    exact fun h => ⟨h.1, _, hmem, h.2⟩
  | padded _ _ text texts hfront hback =>
    rw [gives_cons, gives_cons, trim_padded hfront hback]
  | blank _ texts hgap =>
    rw [gives_cons, trim_gap hgap, iff_or_self]
    exact fun h => absurd h.2.symm h.1

theorem gives_iff_of_rewords {texts' : List String} (h : Relation.EqvGen Rewords texts texts') :
    Gives texts name ↔ Gives texts' name := by
  induction h with
  | rel _ _ hstep => exact hstep.gives_iff
  | refl => exact Iff.rfl
  | symm _ _ _ ih => exact ih.symm
  | trans _ _ _ _ _ ih ih' => exact ih.trans ih'

end Identities

namespace Row

open Identities (Gives Rewords)

/-- The rows of a listing that belong to the names of a list. -/
def namedBy (text : String) (names : List String) : List Row :=
  (MatchSet.select (ofListing text) (.ofList names)).rows

/-- The ip and the node of a line are not assigned. -/
def IsUnassigned (line : String) : Prop :=
  ∃ layout, Layout.detect? (Text.words line) = some layout ∧
    (Text.words line)[layout.ipIndex]? = some Layout.noneMarker ∧
    (Text.words line)[layout.nodeIndex]? = some Layout.noneMarker

theorem belongsTo_ofList (row : Row) (names : List String) :
    row.belongsTo (.ofList names) = decide (Gives names row.ip ∨ Gives names row.node) := by
  rw [Bool.eq_iff_iff, belongsTo, Bool.or_eq_true, Identities.contains_ofList,
    Identities.contains_ofList, decide_eq_true_iff]

theorem namedBy_eq (text : String) (names : List String) :
    namedBy text names =
      (ofListing text).filter fun row => Gives names row.ip ∨ Gives names row.node :=
  List.filter_congr fun row _ => belongsTo_ofList row names

theorem mem_namedBy_iff {text : String} {names : List String} {row : Row} :
    row ∈ namedBy text names ↔
      row ∈ ofListing text ∧ (Gives names row.ip ∨ Gives names row.node) := by
  simp [namedBy_eq]

theorem empty_of_isUnassigned {line : String} {row : Row} (h : IsUnassigned line)
    (hrow : ofLine? line = some row) : row.ip = "" ∧ row.node = "" := by
  obtain ⟨layout, hlayout, hip, hnode⟩ := h
  obtain ⟨-, -, layout', ip, node, -, -, -, -, hlayout', hip', hnode', heip, henode, -⟩ :=
    ofTokens?_eq_some_iff.1 hrow
  rw [hlayout] at hlayout'
  cases hlayout'
  rw [hip] at hip'
  rw [hnode] at hnode'
  cases hip'
  cases hnode'
  exact ⟨heip, henode⟩

/-- The rows that belong to a list are those with a name of the list as ip or node, each once and in
the order of the listing. Only the names matter, not how the list is written; two lists together
select what either of them selects; and a line without ip and node gives no row to any list. -/
theorem namedBy_depends_on_names (text : String) (names more : List String) :
    namedBy text names =
      (ofListing text).filter (fun row => Gives names row.ip ∨ Gives names row.node) ∧
    (∀ names', (∀ name, Gives names name ↔ Gives names' name) →
      namedBy text names' = namedBy text names) ∧
    (∀ names', Relation.EqvGen Rewords names names' → namedBy text names' = namedBy text names) ∧
    namedBy text (names ++ more) =
      (ofListing text).filter
        (fun row => row ∈ namedBy text names ∨ row ∈ namedBy text more) ∧
    ∀ line row, IsUnassigned line → ofLine? line = some row → row ∉ namedBy text names := by
  have hcongr : ∀ names', (∀ name, Gives names name ↔ Gives names' name) →
      namedBy text names' = namedBy text names := by
    intro names' hnames
    simp only [namedBy_eq, hnames]
  refine ⟨namedBy_eq text names, hcongr, ?_, ?_, ?_⟩
  · intro names' hrewords
    exact hcongr names' fun _ => Identities.gives_iff_of_rewords hrewords
  · rw [namedBy_eq text (names ++ more)]
    refine List.filter_congr fun row hrow => ?_
    simp only [mem_namedBy_iff, hrow, true_and, Identities.gives_append, decide_eq_decide]
    exact or_or_or_comm
  · intro line row hunassigned hrow hmem
    obtain ⟨hip, hnode⟩ := empty_of_isUnassigned hunassigned hrow
    rcases (mem_namedBy_iff.1 hmem).2 with hgives | hgives
    · exact hgives.1 hip
    · exact hgives.1 hnode

/-- The line of a pod that has no address and no node yet. -/
def pendingLine : String := "b 0/3 Pending 0 1d <none> <none> <none> <none>"

def pendingText : String :=
  pendingLine ++ "\n" ++ "a 3/3 Running 0 1d 10.0.0.1 n1 <none> <none>\n"

theorem namedBy_pendingText :
    IsUnassigned pendingLine ∧
    namedBy pendingText ["<none>", "10.0.0.1", "n1"] =
      namedBy pendingText ["n1", "10.0.0.1", "<none>"] ∧
    namedBy pendingText ["", "\tn1 ", "10.0.0.1", "<none>"] =
      namedBy pendingText ["n1", "10.0.0.1", "<none>"] ∧
    ⟨"b", "Pending", 0, "", "", none⟩ ∉ namedBy pendingText ["", " ", "<none>"] := by
  have hunassigned : IsUnassigned pendingLine :=
    ⟨.canonical, by decide +kernel, by decide +kernel, by decide +kernel⟩
  have hperm : Rewords ["n1", "10.0.0.1", "<none>"] ["<none>", "10.0.0.1", "n1"] :=
    .reorder (by decide)
  have hpadded : Rewords ["n1", "10.0.0.1", "<none>"] ["\tn1 ", "10.0.0.1", "<none>"] :=
    .padded ['\t'] [' '] "n1" _ (List.all_eq_true.1 (by decide)) (List.all_eq_true.1 (by decide))
  have hblank : Rewords ["\tn1 ", "10.0.0.1", "<none>"] ["", "\tn1 ", "10.0.0.1", "<none>"] :=
    .blank [] _ (List.forall_mem_nil _)
  refine ⟨hunassigned, ?_, ?_, ?_⟩
  · exact (namedBy_depends_on_names _ _ []).2.1 _ fun _ => hperm.gives_iff
  · exact (namedBy_depends_on_names _ _ []).2.2.1 _
      (.trans _ _ _ (.rel _ _ hpadded) (.rel _ _ hblank))
  · exact (namedBy_depends_on_names _ _ []).2.2.2.2 _ _ hunassigned (by decide +kernel)

end Row

end NodeHealth
