import Mathlib.Data.List.Basic
import NodeHealth.Proofs.Pod.Acceptance
import NodeHealth.Proofs.Pod.WideTable

/-!
# The overflow of a row

A line that carries an annotation and the node behind it is read, and the overflow of the row is
what the annotation counts. Blanks within an annotation `(used/total)` may divide it into up to
three tokens; joined by single spaces these spell the same numbers.

* `Remark.exists_of_join`: tokens that join to a text in brackets, with no other closing bracket,
  are an annotation.
* `Remark.exists_row`: the overflow of a line is what its annotation counts.
* `ofLine?_overflow`: the overflow of annotations that spell counts, and of those that count
  nothing.
-/

namespace NodeHealth

namespace Row

/-- The columns behind an annotation reach to the node. They are an age, ip and node, and any
more; ip and node alone are enough if the annotation took the place of the age. -/
inductive ReachesNode : List String → Prop
  | three (age ip node : String) (further : List String) :
      ReachesNode (age :: ip :: node :: further)
  | two (ip node : String) (isIp : ip = "<none>" ∨ Address.isAddress ip = true) :
      ReachesNode [ip, node]

/-- The tokens of a line: name, ready, phase and restart count, those of an annotation, and enough
columns behind it. -/
inductive Carries (remark : List String) : List String → Prop
  | intro {name ready phase count : String} {restarts : Nat} {columns : List String} :
      Numeral.Denotes count.toList restarts → restarts < UInt32.size → ReachesNode columns →
      9 ≤ 4 + remark.length + columns.length →
      Carries remark ([name, ready, phase, count] ++ (remark ++ columns))

end Row

namespace Remark

/-- What stands before the last token of a joined text holds all other tokens. -/
theorem exists_before_last (front : List String) (last : String) :
    ∃ before, (" ".intercalate (front ++ [last])).toList = before ++ last.toList ∧
      ∀ t ∈ front, t.toList ⊆ before := by
  by_cases hfront : front = []
  · subst hfront
    exact ⟨[], by simp, List.forall_mem_nil _⟩
  · refine ⟨(" ".intercalate front ++ " ").toList, ?_, fun t ht => ?_⟩
    · rw [String.intercalate_append_of_ne_nil hfront (List.cons_ne_nil last []),
        String.intercalate_singleton, String.toList_append]
    · have hmem := List.mem_map_of_mem (f := String.toList) ht
      have hwithin := Chars.infix_intercalate " ".toList hmem
      rw [← String.toList_intercalate] at hwithin
      rw [String.toList_append]
      exact fun c hc => List.mem_append_left _ (hwithin.subset hc)

/-- A joined text begins as its first token does. -/
theorem head?_join {tokens : List String} (hne : ∀ t ∈ tokens, t.toList ≠ []) :
    ∀ t ∈ tokens.head?, t.toList.head? = (" ".intercalate tokens).toList.head? := by
  intro t ht
  obtain ⟨rest, rfl⟩ := List.head?_eq_some_iff.1 ht
  obtain ⟨c, cs, hcs⟩ := List.exists_cons_of_ne_nil (hne t List.mem_cons_self)
  obtain ⟨behind, hjoin⟩ := Chars.prefix_intercalate " ".toList t.toList (rest.map String.toList)
  rw [String.toList_intercalate, List.map_cons, ← hjoin, hcs, List.cons_append, List.head?_cons,
    List.head?_cons]

/-- Tokens are an annotation if joined they begin with an opening bracket and hold only one closing
bracket, at the end. -/
theorem exists_of_join {tokens : List String} (hshort : tokens.length ≤ 3)
    (hne : ∀ t ∈ tokens, t.toList ≠ []) {body : List Char}
    (hjoin : (" ".intercalate tokens).toList = '(' :: (body ++ [')'])) (hbody : ')' ∉ body) :
    ∃ r : Remark, r.tokens = tokens := by
  have hopens : ∀ t ∈ tokens.head?, t.toList.head? = some '(' := by
    intro t ht
    rw [head?_join hne t ht, hjoin, List.head?_cons]
  rcases List.eq_nil_or_concat tokens with rfl | ⟨front, last, rfl⟩
  · simp at hjoin
  rw [List.concat_eq_append] at *
  have hlast : last.toList ≠ [] := hne last (by simp)
  obtain ⟨before, hbefore, hfront⟩ := exists_before_last front last
  rw [hbefore, ← List.cons_append] at hjoin
  have hcloses : last.toList.getLast? = some ')' := by
    rw [← List.getLast?_append_of_ne_nil before hlast, hjoin, List.getLast?_concat]
  have hinner : ∀ t ∈ front, t.toList.getLast? ≠ some ')' := by
    intro t ht hclose
    have hdrop : before ++ last.toList.dropLast = '(' :: body := by
      rw [← List.dropLast_append_of_ne_nil hlast, hjoin, List.dropLast_concat]
    have hmem : ')' ∈ '(' :: body :=
      hdrop ▸ List.mem_append_left _ (hfront t ht (List.mem_of_getLast? hclose))
    rcases List.mem_cons.1 hmem with hmem | hmem
    · exact absurd hmem (by decide)
    · exact hbody hmem
  have hlength : front.length ≤ 2 := by
    rw [List.length_append, List.length_singleton] at hshort
    omega
  exact ⟨⟨front, last, hlength, hopens, hinner, hcloses⟩, rfl⟩

/-- The tokens of a text that spells counts are an annotation. -/
theorem exists_of_spellsCounts {text : String} {used total : Nat}
    (h : Row.SpellsCounts text.toList used total) (hshort : (Text.words text).length ≤ 3) :
    ∃ r : Remark, r.tokens = Text.words text := by
  obtain ⟨body, hjoin, -, hclose, -⟩ := h.oneLine.exists_inner
  refine exists_of_join hshort (fun t ht => ?_) hjoin hclose
  obtain ⟨w, hw, rfl⟩ := List.mem_map.1 ht
  rw [String.toList_ofList]
  exact (Chars.isWord_of_mem_words hw).1

/-- Nine tokens of which an annotation takes three leave two columns, which reach to the node only
if the first of them is the ip. -/
theorem not_hidesNode (r : Remark) {start columns : List String} (hstart : start.length = 4)
    (hreaches : Row.ReachesNode columns) : ¬ Row.HidesNode (start ++ (r.tokens ++ columns)) := by
  intro hhides
  obtain ⟨hlength, hlayout⟩ := Row.hidesNode_iff.1 hhides
  have hwidth : r.tokens.length = r.front.length + 1 := by simp [tokens]
  simp only [Row.minTokens, List.length_append, hstart, hwidth] at hlength
  cases hreaches with
  | three age ip node further =>
    rw [r.detect?_append hstart, Option.some.injEq, Layout.annotated.injEq] at hlayout
    simp only [List.length_cons] at hlength
    omega
  | two ip node isIp =>
    have hcolumn : Layout.isIpColumn ip = true := by
      simpa [Layout.isIpColumn, Layout.noneMarker] using isIp
    rw [r.detect?_append hstart, if_pos hcolumn, Option.some.injEq, Layout.annotated.injEq]
      at hlayout
    cases hlayout.2

/-- A line that carries an annotation is read, and its overflow is what the annotation counts. -/
theorem exists_row (r : Remark) {tokens : List String} (h : Row.Carries r.tokens tokens) :
    ∃ row, Row.ofTokens? tokens = some row ∧ row.overflow = some (Row.overflowOf r.tokens) := by
  cases h with
  | @intro name ready phase count restarts columns hcount hsize hreaches hlong =>
    have hmin : Row.minTokens ≤ ([name, ready, phase, count] ++ (r.tokens ++ columns)).length := by
      simp only [Row.minTokens, List.length_append, List.length_cons, List.length_nil] at hlong ⊢
      omega
    have hrestarts : Numeral.word32? count = some (UInt32.ofNat restarts) := by
      rwa [Numeral.word32?_eq_some_iff, UInt32.toNat_ofNat_of_lt' hsize]
    obtain ⟨row, hrow⟩ := Row.exists_ofTokens? hmin rfl hrestarts (r.not_hidesNode rfl hreaches)
    refine ⟨row, hrow, ?_⟩
    obtain ⟨-, _, layout, -, -, -, -, -, -, hlayout, -, -, -, -, hoverflow⟩ :=
      Row.ofTokens?_eq_some_iff.1 hrow
    obtain ⟨next, rest, rfl⟩ : ∃ next rest, columns = next :: rest := by
      cases hreaches <;> exact ⟨_, _, rfl⟩
    obtain rfl := Option.some.inj ((r.detect?_append rfl).symm.trans hlayout)
    rw [hoverflow, Layout.remark?, Layout.remarkIndex, r.take_drop rfl, Option.map_some]

end Remark

namespace Row

theorem exists_ofLine?_of_spellsCounts {line text : String} {used total : Nat}
    (h : SpellsCounts text.toList used total) (hused : used < UInt32.size)
    (htotal : total < UInt32.size) (hshort : (Text.words text).length ≤ 3)
    (hline : Carries (Text.words text) (Text.words line)) :
    ∃ row excess, ofLine? line = some row ∧ row.overflow = some excess ∧
      excess.toNat = if used ≤ total then total - used else 0 := by
  obtain ⟨r, hr⟩ := Remark.exists_of_spellsCounts h hshort
  rw [← hr] at hline
  obtain ⟨row, hrow, hoverflow⟩ := r.exists_row hline
  refine ⟨row, _, hrow, hoverflow, ?_⟩
  have hspells : SpellsCounts (" ".intercalate r.tokens).toList (UInt32.ofNat used).toNat
      (UInt32.ofNat total).toNat := by
    rw [UInt32.toNat_ofNat_of_lt' hused, UInt32.toNat_ofNat_of_lt' htotal, hr]
    exact h.oneLine
  rw [hspells.overflowOf, toNat_excess, UInt32.toNat_ofNat_of_lt' hused,
    UInt32.toNat_ofNat_of_lt' htotal]
  split <;> omega

/-- The overflow of a line with an annotation `(used/total)` is the exact difference of the two
numbers, and zero if it were negative, whatever blanks the annotation holds. The overflow is zero
too if the text within the brackets of an annotation has no slash, or no 32-bit number on one side
of the first slash. -/
theorem ofLine?_overflow :
    (∀ (line text : String) (used total : Nat), SpellsCounts text.toList used total →
      used < UInt32.size → total < UInt32.size → (Text.words text).length ≤ 3 →
      Carries (Text.words text) (Text.words line) →
      ∃ row excess, ofLine? line = some row ∧ row.overflow = some excess ∧
        excess.toNat = if used ≤ total then total - used else 0) ∧
    ∀ (line : String) (r : Remark) (inner : List Char), Carries r.tokens (Text.words line) →
      Bared (" ".intercalate r.tokens).toList inner → Uncounted inner →
      ∃ row, ofLine? line = some row ∧ row.overflow = some 0 := by
  refine ⟨fun _ _ _ _ h hused htotal hshort hline => ?_, fun line r inner hline hbared h => ?_⟩
  · exact exists_ofLine?_of_spellsCounts h hused htotal hshort hline
  · obtain ⟨row, hrow, hoverflow⟩ := r.exists_row hline
    exact ⟨row, hrow, by rw [hoverflow, overflowOf_of_uncounted hbared h]⟩

/-- An annotation of three tokens. -/
def looseCounts : String := "(\u3000007/ 4294967295)"

/-- A line of nine tokens with this annotation in the place of the age. -/
def looseLine : String := "p 1/1 Running 3 (\u3000007/ 4294967295) 10.0.0.5 n1"

/-- An annotation with a second slash. -/
def slashRemark : Remark :=
  ⟨["((1/"], "2/3))", by decide, by decide, by decide, by decide⟩

def slashLine : String := "p 1/1 Running 3 ((1/ 2/3)) 5d 10.0.0.5 n1 <none>"

theorem ofLine?_overflow_looseLine :
    SpellsCounts looseCounts.toList 7 4294967295 ∧
    (∃ row excess, ofLine? looseLine = some row ∧ row.overflow = some excess ∧
      excess.toNat = 4294967288) ∧
    Uncounted "1/ 2/3".toList ∧
    ∃ row, ofLine? slashLine = some row ∧ row.overflow = some 0 := by
  have hspells : SpellsCounts looseCounts.toList 7 4294967295 := by
    refine ⟨"007".toList, "4294967295".toList, Numeral.unsigned?_eq_some_iff.1 (by decide +kernel),
      Numeral.unsigned?_eq_some_iff.1 (by decide +kernel), ?_⟩
    have hwide : Chars.IsGap ['\u3000'] := List.forall_mem_singleton.2 (by decide)
    have hspace : Chars.IsGap [' '] := List.forall_mem_singleton.2 (by decide)
    exact .cons hwide <| .cons Chars.isGap_nil <| .cons hspace <| .cons Chars.isGap_nil <| .last _
  have hnumeral : Numeral.Denotes "3".toList 3 :=
    Numeral.unsigned?_eq_some_iff.1 (by decide +kernel)
  have hcarries : Carries (Text.words looseCounts) (Text.words looseLine) := by
    have hremark : Text.words looseCounts = ["(", "007/", "4294967295)"] := by decide +kernel
    have hline : Text.words looseLine = ["p", "1/1", "Running", "3"] ++
        (["(", "007/", "4294967295)"] ++ ["10.0.0.5", "n1"]) := by decide +kernel
    rw [hremark, hline]
    exact .intro hnumeral (by decide) (.two _ _ (.inr (by decide +kernel))) (by decide)
  have hsecond : Uncounted "1/ 2/3".toList := by
    have htrim : Chars.trim " 2/3".toList = "2/3".toList := by decide +kernel
    refine .noNumber (a := ['1']) (b := " 2/3".toList) rfl (by decide) (.inr rfl) ?_
    rw [htrim]
    exact Numeral.word32?_eq_none_iff.1 (by decide +kernel)
  have hslash : Carries slashRemark.tokens (Text.words slashLine) := by
    have hline : Text.words slashLine = ["p", "1/1", "Running", "3"] ++
        (slashRemark.tokens ++ ["5d", "10.0.0.5", "n1", "<none>"]) := by decide +kernel
    rw [hline]
    exact .intro hnumeral (by decide) (.three _ _ _ _) (by decide)
  have hbared : Bared (" ".intercalate slashRemark.tokens).toList "1/ 2/3".toList :=
    ⟨⟨2, 2, by decide +kernel⟩, by decide, by decide⟩
  obtain ⟨hcounted, hnone⟩ := ofLine?_overflow
  exact ⟨hspells, hcounted _ _ _ _ hspells (by decide) (by decide) (by decide +kernel) hcarries,
    hsecond, hnone _ _ _ hslash hbared hsecond⟩

end Row

end NodeHealth
