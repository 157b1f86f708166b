import NodeHealth.Proofs.Pod.Reading
import NodeHealth.Proofs.Text.Numeral

/-!
# Which lines are pod lines

A line is passed over if it is short, if its fourth token is no 32-bit count, or if it has no more
than nine tokens and an annotation takes three of them, so that there is none left for the node.
There is no other way to lose a row, and no text behind a pod line can.

* `hidesNode_iff`: the one layout that needs more than nine tokens.
* `ofTokens?_append`: further tokens leave a row as it is.
* `ofLine?_language`: the lines that are passed over.
-/

namespace NodeHealth.Row

/-- Nine tokens of which an annotation takes three and an age one, so that the ip is the last. -/
inductive HidesNode : List String → Prop
  | intro {name ready phase count first second third age ip : String}
      (opens : first.toList.head? = some '(') (openFirst : first.toList.getLast? ≠ some ')')
      (openSecond : second.toList.getLast? ≠ some ')') (closes : third.toList.getLast? = some ')')
      (assigned : age ≠ "<none>") (noAddress : Address.isAddress age = false) :
      HidesNode [name, ready, phase, count, first, second, third, age, ip]

theorem exists_tokens_of_length : ∀ {tokens : List String}, tokens.length = minTokens →
    ∃ name ready phase count first second third age ip,
      tokens = [name, ready, phase, count, first, second, third, age, ip]
  | [_, _, _, _, _, _, _, _, _], _ => ⟨_, _, _, _, _, _, _, _, _, rfl⟩

theorem hidesNode_iff {tokens : List String} :
    HidesNode tokens ↔
      tokens.length = minTokens ∧ Layout.detect? tokens = some (.annotated 6 .afterAge) := by
  constructor
  · rintro ⟨opens, openFirst, openSecond, closes, assigned, noAddress⟩
    refine ⟨rfl, ?_⟩
    simp [Layout.detect?, Layout.remarkIndex, Layout.closeIndices, Layout.opensRemark,
      Layout.closesRemark, Layout.isIpColumn, Layout.noneMarker, *]
  · rintro ⟨hlength, hlayout⟩
    obtain ⟨name, ready, phase, count, first, second, third, age, ip, rfl⟩ :=
      exists_tokens_of_length hlength
    obtain ⟨hopens, hfind, next, hnext, hanchor⟩ := Layout.detect?_eq_annotated_iff.1 hlayout
    obtain ⟨-, hcloses, hopen⟩ := Layout.find?_closeIndices_eq_some_iff.1 hfind
    have hfirst := hopen 4 (by decide) (by decide)
    have hsecond := hopen 5 (by decide) (by decide)
    obtain rfl : age = next := by simpa using hnext
    have hage : Layout.isIpColumn age = false := by
      cases h : Layout.isIpColumn age with
      | false => rfl
      | true => simp [h] at hanchor
    obtain ⟨hassigned, haddress⟩ : age ≠ "<none>" ∧ Address.isAddress age = false := by
      simpa [Layout.isIpColumn, Layout.noneMarker] using hage
    exact .intro (by simpa [Layout.remarkIndex, Layout.opensRemark] using hopens)
      (by simpa [Layout.closesRemark] using hfirst)
      (by simpa [Layout.closesRemark] using hsecond)
      (by simpa [Layout.closesRemark] using hcloses) hassigned haddress

/-! ## Lists of tokens -/

section Tokens

variable {tokens : List String} {row : Row}

theorem exists_ofTokens? {count : String} {restarts : UInt32} (hlength : minTokens ≤ tokens.length)
    (hcount : tokens[3]? = some count) (hrestarts : Numeral.word32? count = some restarts)
    (hhides : ¬ HidesNode tokens) : ∃ row, ofTokens? tokens = some row := by
  unfold minTokens at hlength
  obtain ⟨layout, hlayout⟩ := Layout.exists_detect? (Nat.le_of_succ_le hlength)
  have hnode : layout.nodeIndex < tokens.length := by
    rcases Layout.nodeIndex_of_detect? hlayout with hindex | rfl
    · omega
    · -- This layout looks for the node behind the ninth token.
      have hne : tokens.length ≠ 9 := fun h => hhides (hidesNode_iff.2 ⟨h, hlayout⟩)
      show 9 < tokens.length
      omega
  have hip : layout.ipIndex < tokens.length := Nat.lt_of_succ_lt hnode
  refine ⟨⟨tokens[0], tokens[2], restarts, column tokens[layout.ipIndex],
    column tokens[layout.nodeIndex], (layout.remark? tokens).map overflowOf⟩,
    ofTokens?_eq_some_iff.2 ⟨hlength, count, layout, tokens[layout.ipIndex],
      tokens[layout.nodeIndex], ?_, ?_, hcount, hrestarts, hlayout, ?_, ?_, rfl, rfl, rfl⟩⟩
  · exact List.getElem?_eq_getElem (by omega)
  · exact List.getElem?_eq_getElem (by omega)
  · exact List.getElem?_eq_getElem hip
  · exact List.getElem?_eq_getElem hnode

theorem HidesNode.ofTokens?_eq_none (h : HidesNode tokens) : ofTokens? tokens = none := by
  obtain ⟨hlength, hlayout⟩ := hidesNode_iff.1 h
  cases hrow : ofTokens? tokens with
  | none => rfl
  | some row =>
    obtain ⟨-, _, layout, _, node, -, -, -, -, hlayout', -, hnode, -⟩ :=
      ofTokens?_eq_some_iff.1 hrow
    obtain rfl : .annotated 6 .afterAge = layout := Option.some.inj (hlayout.symm.trans hlayout')
    have hlt : 9 < tokens.length := (List.getElem?_eq_some_iff.1 hnode).1
    unfold minTokens at hlength
    omega

/-- Tokens are passed over if they are few, if the fourth is no count or if there is none left for
the node. -/
theorem ofTokens?_eq_none_iff :
    ofTokens? tokens = none ↔ tokens.length < minTokens ∨
      (∃ count, tokens[3]? = some count ∧ Numeral.word32? count = none) ∨ HidesNode tokens := by
  constructor
  · intro hnone
    by_cases hlength : minTokens ≤ tokens.length
    · have hlt : 3 < tokens.length := Nat.lt_of_lt_of_le (by decide) hlength
      have hcount : tokens[3]? = some tokens[3] := List.getElem?_eq_getElem hlt
      cases hrestarts : Numeral.word32? tokens[3] with
      | none => exact .inr (.inl ⟨_, hcount, hrestarts⟩)
      | some restarts =>
        refine .inr (.inr ?_)
        by_cases hhides : HidesNode tokens
        · exact hhides
        · obtain ⟨row, hrow⟩ := exists_ofTokens? hlength hcount hrestarts hhides
          rw [hnone] at hrow
          cases hrow
    · exact .inl (Nat.lt_of_not_le hlength)
  · rintro (hlength | ⟨count, hcount, hrestarts⟩ | hhides)
    · exact ofTokens?_eq_none hlength
    · cases hrow : ofTokens? tokens with
      | none => rfl
      | some row =>
        obtain ⟨-, count', -, -, -, -, -, hcount', hrestarts', -⟩ := ofTokens?_eq_some_iff.1 hrow
        obtain rfl : count = count' := Option.some.inj (hcount.symm.trans hcount')
        rw [hrestarts] at hrestarts'
        cases hrestarts'
    · exact hhides.ofTokens?_eq_none

/-- Further tokens leave a row as it is. -/
theorem ofTokens?_append (hrow : ofTokens? tokens = some row) (further : List String) :
    ofTokens? (tokens ++ further) = some row := by
  obtain ⟨hlength, _, layout, ip, node, -, -, -, -, hlayout, hip, hnode, heip, henode, -⟩ :=
    ofTokens?_eq_some_iff.1 hrow
  have htake : tokens.take 8 = (tokens ++ further).take 8 :=
    (List.take_append_of_le_length (Nat.le_of_succ_le hlength)).symm
  have hkept : ∀ {i : Nat} {token : String}, tokens[i]? = some token →
      (tokens ++ further)[i]? = some token := by
    intro i token htoken
    rw [List.getElem?_append_left (List.getElem?_eq_some_iff.1 htoken).1, htoken]
  have hlong : minTokens ≤ (tokens ++ further).length := by
    rw [List.length_append]
    exact Nat.le_add_right_of_le hlength
  rw [ofTokens?_congr htake hrow hlayout hlong (hkept hip) (hkept hnode), ← heip, ← henode]

end Tokens

/-! ## Lines -/

/-- The lines that are passed over are those of fewer than nine words, those whose fourth word is
no numeral of a 32-bit number, and those that hide the node. With nine words there always is a
layout, and a line that begins with the words of a pod line is read as that one. -/
theorem ofLine?_language (line : String) :
    (ofLine? line = none ↔ (Text.words line).length < 9 ∨
      (∃ count, (Text.words line)[3]? = some count ∧
        ¬ ∃ n < UInt32.size, Numeral.Denotes count.toList n) ∨
      HidesNode (Text.words line)) ∧
    (9 ≤ (Text.words line).length → ∃ layout, Layout.detect? (Text.words line) = some layout) ∧
    ∀ row longer, ofLine? line = some row → Text.words line <+: Text.words longer →
      ofLine? longer = some row := by
  refine ⟨?_, ?_, ?_⟩
  · rw [ofLine?, ofTokens?_eq_none_iff]
    simp only [Numeral.word32?_eq_none_iff]
    rfl
  · intro hlength
    exact Layout.exists_detect? (Nat.le_of_succ_le hlength)
  · rintro row longer hrow ⟨further, hwords⟩
    rw [ofLine?, ← hwords]
    exact ofTokens?_append hrow further

theorem ofLine?_threeWordRemark :
    HidesNode (Text.words "p 1/1 Running 1 (a b c) 5d 10.0.0.1") ∧
    ofLine? "p 1/1 Running 1 (a b c) 5d 10.0.0.1" = none ∧
    (∃ layout, Layout.detect? (Text.words "p 1/1 Running 1 (a b c) 5d 10.0.0.1") = some layout) ∧
    ofLine? "p 1/1 Running +3 (a b c) 10.0.0.1 n" =
      some ⟨"p", "Running", 3, "10.0.0.1", "n", some 0⟩ ∧
    ofLine? " p 1/1 Running +3 (a b c) 10.0.0.1 n\t<none> (x) y" =
      some ⟨"p", "Running", 3, "10.0.0.1", "n", some 0⟩ := by
  have hwords : Text.words "p 1/1 Running 1 (a b c) 5d 10.0.0.1" =
      ["p", "1/1", "Running", "1", "(a", "b", "c)", "5d", "10.0.0.1"] := by decide +kernel
  have hhides : HidesNode (Text.words "p 1/1 Running 1 (a b c) 5d 10.0.0.1") := by
    rw [hwords]
    exact .intro (by decide) (by decide) (by decide) (by decide) (by decide) (by decide +kernel)
  have hrow : ofLine? "p 1/1 Running +3 (a b c) 10.0.0.1 n" =
      some ⟨"p", "Running", 3, "10.0.0.1", "n", some 0⟩ := by decide +kernel
  obtain ⟨hnone, hlayout, -⟩ := ofLine?_language "p 1/1 Running 1 (a b c) 5d 10.0.0.1"
  refine ⟨hhides, hnone.2 (.inr (.inr hhides)), hlayout (by rw [hwords]; decide), hrow, ?_⟩
  exact (ofLine?_language "p 1/1 Running +3 (a b c) 10.0.0.1 n").2.2 _ _ hrow (by decide +kernel)

end NodeHealth.Row
