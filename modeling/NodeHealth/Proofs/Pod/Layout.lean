import NodeHealth.Pod.Layout

/-!
# Which tokens decide a layout

* `detect?_of_not_opens`, `detect?_of_remark`: the layout of a line without an annotation and of a
  line whose annotation is closed by the first of its tokens that can close it.
* `detect?_eq_annotated_iff`: when a layout is annotated.
* `exists_detect?`, `nodeIndex_of_detect?`: a line that is long enough has a layout, and one layout
  alone looks for the node behind the ninth token.
* `detect?_congr`, `remark?_congr`: the layout and the annotation depend on the first eight tokens
  alone, so that no token behind them can move a column.
-/

namespace NodeHealth.Layout

theorem detect?_of_not_opens {tokens : List String}
    (h : tokens[remarkIndex]?.any opensRemark = false) : detect? tokens = some canonical := by
  rw [detect?, h]
  rfl

/-- An annotation begins behind the fourth token, and `last` is the first of its tokens that closes
it; the token behind it tells where the ip stands. -/
theorem detect?_of_remark {start front rest : List String} {last next : String}
    (hstart : start.length = 4) (hfront : front.length ≤ 2)
    (hopens : (front ++ [last]).head?.any opensRemark = true)
    (hinner : ∀ t ∈ front, closesRemark t = false) (hcloses : closesRemark last = true) :
    detect? (start ++ (front ++ last :: next :: rest)) =
      some (annotated (4 + front.length)
        (if isIpColumn next then .displacedAge else .afterAge)) := by
  obtain ⟨a, b, c, d, rfl⟩ : ∃ a b c d, start = [a, b, c, d] := by
    match start, hstart with
    | [a, b, c, d], _ => exact ⟨a, b, c, d, rfl⟩
  match front, hfront with
  | [], _ =>
    have ho : opensRemark last = true := hopens
    simp [detect?, remarkIndex, closeIndices, ho, hcloses]
  | [x], _ =>
    have ho : opensRemark x = true := hopens
    have hx : closesRemark x = false := hinner x (by simp)
    simp [detect?, remarkIndex, closeIndices, ho, hx, hcloses]
  | [x, y], _ =>
    have ho : opensRemark x = true := hopens
    have hx : closesRemark x = false := hinner x (by simp)
    have hy : closesRemark y = false := hinner y (by simp)
    simp [detect?, remarkIndex, closeIndices, ho, hx, hy, hcloses]

/-- An annotation is closed by the first of the three tokens that can close it. -/
theorem find?_closeIndices_eq_some_iff {p : Nat → Bool} {close : Nat} :
    closeIndices.find? p = some close ↔
      (4 ≤ close ∧ close ≤ 6) ∧ p close = true ∧ ∀ i, 4 ≤ i → i < close → p i = false := by
  have hrange : closeIndices = List.range' 4 3 := rfl
  rw [hrange, List.find?_range'_eq_some]
  simp only [List.mem_range'_1, Bool.not_eq_true']
  constructor
  · rintro ⟨hp, hmem, hfirst⟩
    exact ⟨by omega, hp, hfirst⟩
  · rintro ⟨hmem, hp, hfirst⟩
    exact ⟨hp, by omega, hfirst⟩

/-- A layout is annotated if a token opens an annotation, a token closes it and another follows,
which tells where the ip stands. -/
theorem detect?_eq_annotated_iff {tokens : List String} {close : Nat} {anchor : Anchor} :
    detect? tokens = some (annotated close anchor) ↔
      tokens[remarkIndex]?.any opensRemark = true ∧
      closeIndices.find? (fun i => tokens[i]?.any closesRemark) = some close ∧
      ∃ next, tokens[close + 1]? = some next ∧
        (if isIpColumn next then .displacedAge else .afterAge) = anchor := by
  unfold detect?
  split
  · next hopens =>
    cases hfind : closeIndices.find? fun i => tokens[i]?.any closesRemark with
    | none => simp
    | some c =>
      simp only [Option.map_eq_some_iff, Option.some.injEq, annotated.injEq, hopens, true_and]
      constructor
      · rintro ⟨next, hnext, rfl, hanchor⟩
        exact ⟨rfl, next, hnext, hanchor⟩
      · rintro ⟨rfl, next, hnext, hanchor⟩
        exact ⟨next, hnext, rfl, hanchor⟩
  · next hopens => simp [hopens]

/-- An annotation is closed by the seventh token at the latest. -/
theorem close_le_of_detect? {tokens : List String} {close : Nat} {anchor : Anchor}
    (h : detect? tokens = some (annotated close anchor)) : close ≤ 6 :=
  (find?_closeIndices_eq_some_iff.1 (detect?_eq_annotated_iff.1 h).2.1).1.2

/-- A line with a token behind all those that can close an annotation has a layout. -/
theorem exists_detect? {tokens : List String} (h : 8 ≤ tokens.length) :
    ∃ layout, detect? tokens = some layout := by
  unfold detect?
  split
  · split
    · exact ⟨_, rfl⟩
    · next close hfind =>
      have hclose : close ≤ 6 := (find?_closeIndices_eq_some_iff.1 hfind).1.2
      have hlt : close + 1 < tokens.length := by omega
      exact ⟨_, by rw [List.getElem?_eq_getElem hlt, Option.map_some]⟩
  · exact ⟨_, rfl⟩

/-- The node is the tenth token at the latest, and only behind an annotation of three tokens and an
age. -/
theorem nodeIndex_of_detect? {tokens : List String} {layout : Layout}
    (h : detect? tokens = some layout) :
    layout.nodeIndex ≤ 8 ∨ layout = annotated 6 .afterAge := by
  cases layout with
  | canonical => exact .inl (by decide)
  | annotated close anchor =>
    have hclose : close ≤ 6 := close_le_of_detect? h
    cases anchor with
    | displacedAge =>
      refine .inl ?_
      show close + 1 + 1 ≤ 8
      omega
    | afterAge =>
      rcases Nat.lt_or_eq_of_le hclose with hlt | rfl
      · refine .inl ?_
        show close + 2 + 1 ≤ 8
        omega
      · exact .inr rfl

section Congruence

variable {tokens tokens' : List String} (h : tokens.take 8 = tokens'.take 8)
include h

theorem getElem?_congr {i : Nat} (hi : i < 8) : tokens[i]? = tokens'[i]? := by
  rw [← List.getElem?_take_of_lt hi, h, List.getElem?_take_of_lt hi]

theorem detect?_congr : detect? tokens = detect? tokens' := by
  have h4 := getElem?_congr h (i := 4) (by decide)
  have h5 := getElem?_congr h (i := 5) (by decide)
  have h6 := getElem?_congr h (i := 6) (by decide)
  have h7 := getElem?_congr h (i := 7) (by decide)
  have hfind : (closeIndices.find? fun i => tokens[i]?.any closesRemark) =
      closeIndices.find? fun i => tokens'[i]?.any closesRemark := by
    simp only [closeIndices, List.find?_cons, List.find?_nil, h4, h5, h6]
  unfold detect?
  rw [hfind, remarkIndex, h4]
  split
  · split
    · rfl
    · next close hclose =>
      have hmem : close ∈ closeIndices := List.mem_of_find?_eq_some hclose
      simp only [closeIndices, List.mem_cons, List.not_mem_nil, or_false] at hmem
      rcases hmem with rfl | rfl | rfl
      · rw [h5]
      · rw [h6]
      · rw [h7]
  · rfl

theorem remark?_congr {layout : Layout} (hl : detect? tokens = some layout) :
    layout.remark? tokens = layout.remark? tokens' := by
  cases layout with
  | canonical => rfl
  | annotated close anchor =>
    have hclose : close ≤ 6 := close_le_of_detect? hl
    have htake : tokens.take (close + 1) = tokens'.take (close + 1) := by
      have := congrArg (List.take (close + 1)) h
      rwa [List.take_take, List.take_take, Nat.min_eq_left (by omega)] at this
    simp only [remark?, htake]

end Congruence

end NodeHealth.Layout
