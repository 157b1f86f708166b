import NodeHealth.Proofs.Pod.WideTable

/-!
# Reading a table that is cut off

A line needs nine tokens to be read, and a wide annotation pushes the node so far to the right that
nine tokens are left when the line ends within the node. Such a line is read as if the rest of the
node belonged to no one (`NodeCut`); everywhere else a cut is harmless.

* `ofChars?_of_prefix`: a beginning of a line is passed over, read like the whole line, or ends
  within the node.
* `ofListing_cut`: the rows of a cut table are the first rows of the table unless the cut is a
  `NodeCut`, and what is read if it is.
* `cut_node_is_read`: there are such cuts.
-/

namespace NodeHealth

/-! ## A cut line -/

namespace Row

theorem column_ne_of_append {head tail : String} (hhead : head ≠ "") (htail : tail ≠ "") :
    column head ≠ column (head ++ tail) := by
  have hne : head ≠ head ++ tail := by
    intro h
    have hlist := congrArg String.toList h
    exact htail (by simpa using hlist)
  unfold column
  split
  · next h =>
    have hmarker : head = Layout.noneMarker := eq_of_beq h
    rw [if_neg (by simpa [hmarker] using hne.symm)]
    simpa using fun h => absurd h hhead
  · split
    · exact hhead
    · exact hne

/-- If the first tokens of a line and at most one more token are a row, the line has the layout of
that row; and if the node is among the tokens of the line, it is the row of the line. -/
theorem ofTokens?_of_take_append {tokens rest : List String} {n : Nat} {row : Row}
    (hlen : minTokens ≤ tokens.length) (hn : n ≤ tokens.length) (hrest : rest.length ≤ 1)
    (hrow : ofTokens? (tokens.take n ++ rest) = some row) :
    ∃ layout, Layout.detect? tokens = some layout ∧
      layout.nodeIndex < (tokens.take n ++ rest).length ∧ 8 ≤ n ∧
      (layout.nodeIndex < n → ofTokens? tokens = some row) := by
  obtain ⟨hcut, _, layout, ip, node, -, -, -, -, hlayout, hip, hnode, heip, henode, -⟩ :=
    ofTokens?_eq_some_iff.1 hrow
  have hbound : layout.nodeIndex < (tokens.take n ++ rest).length :=
    (List.getElem?_eq_some_iff.1 hnode).1
  have hlate : 8 ≤ n := by
    simp only [minTokens, List.length_append, List.length_take] at hcut
    omega
  have htake : (tokens.take n ++ rest).take 8 = tokens.take 8 := by
    rw [List.take_append_of_le_length (by simp; omega), List.take_take, Nat.min_eq_left hlate]
  have hsame : ∀ {i : Nat}, i < n → tokens[i]? = (tokens.take n ++ rest)[i]? := by
    intro i hi
    rw [List.getElem?_append_left (by simp; omega), List.getElem?_take_of_lt hi]
  refine ⟨layout, by rw [← Layout.detect?_congr htake, hlayout], hbound, hlate, ?_⟩
  intro hlt
  have hline := ofTokens?_congr htake hrow hlayout hlen
    (by rw [hsame (Nat.lt_of_succ_lt hlt), hip]) (by rw [hsame hlt, hnode])
  rw [hline, ← heip, ← henode]

end Row

/-- A cut within the node of a pod line that has an annotation of two or three tokens (three, if
the annotation displaced the age): `head` is what is left of the node. -/
structure NodeCut (t : WideTable) (cut : String) (before : WideTable) (p : PodLine)
    (head : String) : Prop where
  wide : 3 ≤ p.shape.before.length
  node : ∃ tail, head ≠ "" ∧ tail ≠ "" ∧ printColumn p.node = head ++ tail
  line : ∃ l after front, t = before ++ l :: after ∧ l.content = .pod p ∧
    cut.toList = before.chars ++ front ∧ front <+: l.piece ∧
    Chars.Spaced ((p.tokens.take p.nodeIndex ++ [head]).map String.toList) front

namespace PodLine

variable (p : PodLine)

theorem nodeIndex_eq : p.nodeIndex = 5 + p.shape.before.length := by
  rw [nodeIndex, Layout.nodeIndex, Shape.ipIndex_layout]
  omega

theorem row_node : p.row.node = Row.column (printColumn p.node) :=
  (column_printColumn p.node_ne).symm

/-- The tokens up to a beginning of the node are a row with that beginning for its node. -/
theorem ofTokens?_take_append (hwide : 3 ≤ p.shape.before.length) (head : String) :
    Row.ofTokens? (p.tokens.take p.nodeIndex ++ [head]) =
      some { p.row with node := Row.column head } := by
  have hindex := p.nodeIndex_eq
  have hlength : (p.tokens.take p.nodeIndex).length = p.nodeIndex := by
    have := (List.getElem?_eq_some_iff.1 p.getElem?_nodeIndex).1
    simp
    omega
  have htake : p.tokens.take 8 = (p.tokens.take p.nodeIndex ++ [head]).take 8 := by
    rw [List.take_append_of_le_length (by omega), List.take_take, Nat.min_eq_left (by omega)]
  have hip : (p.tokens.take p.nodeIndex ++ [head])[p.shape.layout.ipIndex]? =
      some (printColumn p.shape.ip) := by
    have hlt : p.shape.layout.ipIndex < p.nodeIndex := Nat.lt_succ_self _
    rw [List.getElem?_append_left (by omega), List.getElem?_take_of_lt hlt, p.getElem?_ipIndex]
  have hnode : (p.tokens.take p.nodeIndex ++ [head])[p.shape.layout.nodeIndex]? = some head := by
    show (p.tokens.take p.nodeIndex ++ [head])[p.nodeIndex]? = some head
    rw [List.getElem?_append_right (Nat.le_of_eq hlength), hlength, Nat.sub_self]
    rfl
  rw [Row.ofTokens?_congr htake p.ofTokens?_tokens p.detect?_tokens
    (by simp [hlength, Row.minTokens]; omega) hip hnode, column_printColumn p.ip_ne]
  rfl

end PodLine

namespace TableLine

variable (l : TableLine)

/-- The tokens in a beginning of a line are the first of its tokens and perhaps a beginning of the
next one. -/
theorem tokens_of_prefix {q : List Char} (hq : q <+: l.piece) :
    ∃ n rest, Chars.Spaced ((l.content.tokens.take n ++ rest).map String.toList) q ∧
      n ≤ l.content.tokens.length ∧ rest.length ≤ 1 ∧
      (l.content.tokens.take n ++ rest).length ≤ l.content.tokens.length ∧
      ∀ head ∈ rest, ∃ tail, head ≠ "" ∧ tail ≠ "" ∧
        l.content.tokens[n]? = some (head ++ tail) := by
  rcases l.spaced_piece.cut hq with ⟨n, hn, h⟩ | ⟨n, a, b, ha, hb, hab, h⟩
  · refine ⟨n, [], by simpa [List.map_take] using h, by simpa using hn, by simp, ?_, ?_⟩
    · rw [List.append_nil]
      exact List.length_take_le' n _
    intro head hhead
    cases hhead
  · rw [List.getElem?_map] at hab
    obtain ⟨token, htoken, happend⟩ := Option.map_eq_some_iff.1 hab
    have hlt : n < l.content.tokens.length := (List.getElem?_eq_some_iff.1 htoken).1
    refine ⟨n, [String.ofList a], by simpa [List.map_take] using h, Nat.le_of_lt hlt, by simp,
      by simp; omega, ?_⟩
    intro head hhead
    obtain rfl := List.mem_singleton.1 hhead
    refine ⟨String.ofList b, by simpa using ha, by simpa using hb, ?_⟩
    rw [htoken, ← String.ofList_append, ← happend, String.ofList_toList]

/-- A beginning of a line is passed over, or read like the whole line, or it ends within the node of
a pod line with a wide annotation. -/
theorem ofChars?_of_prefix {q : List Char} (hq : q <+: l.piece) :
    Row.ofChars? q = none ∨ Row.ofChars? q = Row.ofChars? l.piece ∨
      ∃ p head tail, l.content = .pod p ∧ 3 ≤ p.shape.before.length ∧ head ≠ "" ∧ tail ≠ "" ∧
        printColumn p.node = head ++ tail ∧
        Chars.Spaced ((p.tokens.take p.nodeIndex ++ [head]).map String.toList) q := by
  obtain ⟨n, rest, hspaced, hn, hrest, hle, hhead⟩ := l.tokens_of_prefix hq
  rw [Row.ofChars?_of_spaced hspaced, Row.ofChars?_of_spaced l.spaced_piece]
  cases hrow : Row.ofTokens? (l.content.tokens.take n ++ rest) with
  | none => exact .inl rfl
  | some row =>
    have hlong : Row.minTokens ≤ l.content.tokens.length :=
      Nat.le_trans (Row.ofTokens?_eq_some_iff.1 hrow).1 hle
    obtain ⟨layout, hlayout, hbound, hlate, hsame⟩ :=
      Row.ofTokens?_of_take_append hlong hn hrest hrow
    rcases Nat.lt_or_ge layout.nodeIndex n with hlt | hge
    · exact .inr (.inl (hsame hlt).symm)
    cases hcontent : l.content with
    | noise tokens short =>
      rw [hcontent] at hlong
      exact absurd short (Nat.not_lt.2 hlong)
    | pod p =>
      rw [hcontent] at hlayout hbound hspaced hhead
      have hsome := p.detect?_tokens
      rw [LineContent.tokens, hsome] at hlayout
      cases hlayout
      -- the node is the token that was cut
      obtain ⟨head, rfl⟩ : ∃ head, rest = [head] := by
        match rest, hrest with
        | [], _ => simp at hbound; omega
        | [head], _ => exact ⟨head, rfl⟩
      obtain rfl : n = p.nodeIndex := by
        simp at hbound
        exact Nat.le_antisymm hge (by unfold PodLine.nodeIndex; omega)
      obtain ⟨tail, hne, hne', htoken⟩ := hhead head List.mem_cons_self
      rw [LineContent.tokens, p.getElem?_nodeIndex] at htoken
      have hwide : 3 ≤ p.shape.before.length := by
        have := p.nodeIndex_eq
        omega
      exact .inr (.inr ⟨p, head, tail, rfl, hwide, hne, hne', Option.some.inj htoken, hspaced⟩)

end TableLine

namespace WideTable

/-- A beginning of a table is whole lines and a beginning of what stands before the next feed. -/
theorem prefix_cases {t : WideTable} {q : List Char} (h : q <+: t.chars) :
    q = t.chars ∨ ∃ (before : WideTable) (l : TableLine) (after : WideTable) (front : List Char),
      t = before ++ l :: after ∧ q = before.chars ++ front ∧ front <+: l.piece := by
  induction t generalizing q with
  | nil => exact .inl (List.prefix_nil.1 h)
  | cons l t ih =>
    have hchars := chars_cons l t []
    rw [List.append_nil, List.append_nil] at hchars
    rw [hchars] at h
    rcases Chars.prefix_append_cases h with h | ⟨r, rfl, hr⟩
    · exact .inr ⟨[], l, t, q, rfl, rfl, h⟩
    rcases List.prefix_cons_iff.1 hr with rfl | ⟨r, rfl, hrest⟩
    · exact .inr ⟨[], l, t, l.piece, rfl, by simp [chars], List.prefix_refl _⟩
    rcases ih hrest with rfl | ⟨before, l', after, front, rfl, rfl, hfront⟩
    · exact .inl hchars.symm
    · refine .inr ⟨l :: before, l', after, front, rfl, ?_, hfront⟩
      simp [chars, l.chars_eq]

theorem pods_append (t t' : WideTable) : pods (t ++ t') = pods t ++ pods t' := by
  rw [pods, List.filterMap_append]
  rfl

/-- What is read of a table that is cut within a line. -/
theorem ofListing_chars_append (before : WideTable) {l : TableLine} {front : List Char}
    (h : front <+: l.piece) :
    Row.ofListing (String.ofList (before.chars ++ front)) =
      Row.ofListing before.text ++ (Row.ofChars? front).toList := by
  have hfeed : '\n' ∉ front := fun hmem => l.noFeed_piece (h.subset hmem)
  rw [ofListing_chars, ofListing_text_eq, Row.ofListing_of_no_feed hfeed]

theorem ofListing_text_append (before : WideTable) (l : TableLine) (after : WideTable) :
    Row.ofListing (text (before ++ l :: after)) =
      Row.ofListing before.text ++ ((Row.ofChars? l.piece).toList ++ Row.ofListing after.text) := by
  rw [ofListing_text_eq, ofListing_text_eq, ofListing_text_eq, pods_append, pods_cons,
    l.ofChars?_eq, List.map_append, List.map_append]
  cases l.content.pod? <;> rfl

end WideTable

namespace NodeCut

variable {t : WideTable} {cut : String} {before : WideTable} {p : PodLine} {head : String}
  (h : NodeCut t cut before p head)
include h

/-- The cut line is read with what is left of its node. -/
theorem ofListing_eq :
    Row.ofListing cut = Row.ofListing before.text ++ [{ p.row with node := Row.column head }] := by
  obtain ⟨l, after, front, -, -, hcut, hfront, hspaced⟩ := h.line
  have hread := WideTable.ofListing_chars_append before hfront
  rwa [← hcut, String.ofList_toList, Row.ofChars?_of_spaced hspaced,
    p.ofTokens?_take_append h.wide] at hread

/-- The whole line is read as the row of the pod. -/
theorem row_prefix : Row.ofListing before.text ++ [p.row] <+: Row.ofListing t.text := by
  obtain ⟨l, after, front, ht, hcontent, -, -, -⟩ := h.line
  refine ⟨Row.ofListing (WideTable.text after), ?_⟩
  rw [ht, WideTable.ofListing_text_append, l.ofChars?_eq, hcontent, List.append_assoc]
  rfl

theorem node_ne : p.row.node ≠ Row.column head := by
  obtain ⟨tail, hhead, htail, hnode⟩ := h.node
  rw [p.row_node, hnode]
  exact (Row.column_ne_of_append hhead htail).symm

theorem not_prefix : ¬ Row.ofListing cut <+: Row.ofListing t.text := by
  intro hprefix
  have hlast : ({ p.row with node := Row.column head } : Row) = p.row := by
    have hsame := List.prefix_of_prefix_length_le hprefix h.row_prefix (by simp [h.ofListing_eq])
    rw [h.ofListing_eq] at hsame
    simpa using hsame
  exact h.node_ne (congrArg Row.node hlast).symm

end NodeCut

namespace WideTable

/-- Where the cut is not within the node of a line with a wide annotation, the rows of the cut
table are the first rows of the table. -/
theorem prefix_or_nodeCut {t : WideTable} {cut : String} (h : cut.toList <+: t.text.toList) :
    Row.ofListing cut <+: Row.ofListing t.text ∨ ∃ before p head, NodeCut t cut before p head := by
  rw [text, String.toList_ofList] at h
  rcases prefix_cases h with hwhole | ⟨before, l, after, front, ht, hcut, hfront⟩
  · rw [text, ← hwhole, String.ofList_toList]
    exact .inl (List.prefix_refl _)
  have hread := ofListing_chars_append before hfront
  rw [← hcut, String.ofList_toList] at hread
  rcases l.ofChars?_of_prefix hfront with hnone | hsame | ⟨p, head, tail, hcontent, hwide, hhead,
    htail, hnode, hspaced⟩
  · rw [hread, hnone, Option.toList_none, List.append_nil, ht, ofListing_text_append]
    exact .inl (List.prefix_append _ _)
  · rw [hread, hsame, ht, ofListing_text_append, ← List.append_assoc]
    exact .inl (List.prefix_append _ _)
  · exact .inr ⟨before, p, head, hwide, ⟨tail, hhead, htail, hnode⟩,
      l, after, front, ht, hcontent, hcut, hfront, hspaced⟩

/-- The rows of a cut table are the first rows of the table, except where the cut is within the node
of a line with a wide annotation. There the line is read as a row that differs in its node alone,
which is the beginning that is left of it. -/
theorem ofListing_cut {t : WideTable} {cut : String} (h : cut.toList <+: t.text.toList) :
    (Row.ofListing cut <+: Row.ofListing t.text ↔
      ¬ ∃ before p head, NodeCut t cut before p head) ∧
    ∀ before p head, NodeCut t cut before p head →
      Row.ofListing before.text ++ [p.row] <+: Row.ofListing t.text ∧
      Row.ofListing cut = Row.ofListing before.text ++ [{ p.row with node := Row.column head }] ∧
      Row.column head ≠ p.row.node := by
  refine ⟨⟨?_, ?_⟩, ?_⟩
  · rintro hprefix ⟨before, p, head, hcut⟩
    exact hcut.not_prefix hprefix
  · intro hnot
    exact (prefix_or_nodeCut h).resolve_right hnot
  · intro before p head hcut
    exact ⟨hcut.row_prefix, hcut.ofListing_eq, hcut.node_ne.symm⟩

/-- What is left of `sample` by a cut before the last letter of the node of `annotatedPod`. -/
def cutSample : String :=
  "NAME  READY  STATUS\na  3/3\tRunning 0 41d 10.0.0.1 n1 <none> <none> \r\n" ++
    "b 3/3 Running 12 (5h ago) 41d 10.0.0.2 worker-1"

theorem nodeCut_cutSample : NodeCut sample cutSample (sample.take 2) annotatedPod "worker-1" where
  wide := by decide
  node := ⟨"1", by decide, by decide, by decide⟩
  line := ⟨_, sample.drop 3, "b 3/3 Running 12 (5h ago) 41d 10.0.0.2 worker-1".toList, rfl, rfl,
    by decide +kernel, by decide +kernel, Chars.words_eq_iff.1 (by decide +kernel)⟩

theorem cutSample_prefix : cutSample.toList <+: sample.text.toList := by
  rw [text, String.toList_ofList]
  decide +kernel

theorem ofListing_cutSample :
    cutSample.toList <+: sample.text.toList ∧
      ¬ Row.ofListing cutSample <+: Row.ofListing sample.text ∧
      Row.ofListing cutSample = Row.ofListing (text (sample.take 2)) ++
        [⟨"b", "Running", 12, "10.0.0.2", "worker-1", some 0⟩] := by
  have h := cutSample_prefix
  have hrow : ({ annotatedPod.row with node := Row.column "worker-1" } : Row) =
      ⟨"b", "Running", 12, "10.0.0.2", "worker-1", some 0⟩ := by decide +kernel
  refine ⟨h, ?_, ?_⟩
  · intro hprefix
    exact (ofListing_cut h).1.1 hprefix ⟨_, _, _, nodeCut_cutSample⟩
  · rw [((ofListing_cut h).2 _ _ _ nodeCut_cutSample).2.1, hrow]

/-- The listing of `datedPod` alone. -/
def datedTable : WideTable :=
  [⟨.pod datedPod, "p 3/3 Running 2 (5h ago) 12d 10.1.2.3 worker-11 <none> <none>".toList,
    Chars.words_eq_iff.1 (by decide +kernel), by decide +kernel, .feed⟩]

/-- A cut table may be read as rows that the table does not have: here, one letter of the node is
missing. -/
theorem cut_node_is_read :
    ¬ ∀ (t : WideTable) (cut : String), cut.toList <+: t.text.toList →
      Row.ofListing cut <+: Row.ofListing t.text := by
  intro h
  have hcut := h datedTable "p 3/3 Running 2 (5h ago) 12d 10.1.2.3 worker-1" (by decide +kernel)
  exact absurd hcut (by decide +kernel)

end WideTable

end NodeHealth
