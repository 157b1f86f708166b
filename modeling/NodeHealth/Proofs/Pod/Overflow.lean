import NodeHealth.Pod.Listing
import NodeHealth.Proofs.Text.Numeral
import NodeHealth.Proofs.Text.OneLine

/-!
# What an annotation counts

An annotation is one text without the brackets around it (`Bared`). Its first slash parts it, and
what it counts depends on the two parts alone.

* `unwrap_eq_iff`: there is one way to take the brackets away.
* `overflowOf_of_counts`: two numbers, whatever blanks stand around them, count the locations
  beyond the used ones, and none if more are used than there are.
* `overflowOf_of_uncounted`: an annotation with no slash, or with a part that is no 32-bit number,
  counts none.
* `SpellsCounts.overflowOf`: blanks between the brackets, the numbers and the slash of
  `(used/total)` do not change what it counts.
-/

namespace NodeHealth

namespace Row

/-! ## Brackets -/

/-- What is left of a text without all opening brackets at its start and all closing ones at its
end. -/
structure Bared (cs inner : List Char) : Prop where
  brackets : ∃ m n, cs = List.replicate m '(' ++ (inner ++ List.replicate n ')')
  open_ne : inner.head? ≠ some '('
  close_ne : inner.getLast? ≠ some ')'

theorem dropWhile_replicate_append {c : Char} (n : Nat) {rest : List Char}
    (h : rest.head? ≠ some c) : (List.replicate n c ++ rest).dropWhile (· == c) = rest := by
  rw [List.dropWhile_append_of_pos fun x hx => by simp [List.eq_of_mem_replicate hx]]
  refine Chars.dropWhile_of_head fun x hx => beq_false_of_ne ?_
  rintro rfl
  exact h hx

theorem exists_replicate_append (c : Char) (cs : List Char) :
    ∃ n, cs = List.replicate n c ++ cs.dropWhile (· == c) := by
  refine ⟨(cs.takeWhile (· == c)).length, ?_⟩
  have hfront : cs.takeWhile (· == c) = List.replicate (cs.takeWhile (· == c)).length c := by
    refine List.eq_replicate_of_mem fun x hx => ?_
    exact eq_of_beq (List.all_eq_true.1 List.all_takeWhile x hx)
  rw [← hfront, List.takeWhile_append_dropWhile]

theorem bared_unwrap (cs : List Char) : Bared cs (unwrap cs) := by
  obtain ⟨m, hfront⟩ := exists_replicate_append '(' cs
  obtain ⟨n, hback⟩ := exists_replicate_append ')' (cs.dropWhile (· == '(')).reverse
  have hrest : cs.dropWhile (· == '(') = unwrap cs ++ List.replicate n ')' := by
    rw [← List.reverse_inj, List.reverse_append, List.reverse_replicate, unwrap,
      List.reverse_reverse]
    exact hback
  refine ⟨⟨m, n, by rw [← hrest, ← hfront]⟩, ?_, ?_⟩
  · intro hopen
    have hhead : (cs.dropWhile (· == '(')).head? = some '(' := by
      rw [hrest, List.head?_append, hopen, Option.some_or]
    exact absurd (Chars.head_dropWhile _ cs _ hhead) (by decide)
  · intro hclose
    rw [unwrap, List.getLast?_reverse] at hclose
    exact absurd (Chars.head_dropWhile _ _ _ hclose) (by decide)

/-- Unwrapping takes away all brackets around a text. -/
theorem unwrap_eq_iff {cs inner : List Char} : unwrap cs = inner ↔ Bared cs inner := by
  constructor
  · rintro rfl
    exact bared_unwrap cs
  · rintro ⟨⟨m, n, rfl⟩, hopen, hclose⟩
    have hfront : (inner ++ List.replicate n ')').head? ≠ some '(' := by
      rw [List.head?_append, List.head?_replicate]
      cases hhead : inner.head? with
      | none => split <;> simp
      | some c => rwa [Option.some_or, ← hhead]
    rw [unwrap, dropWhile_replicate_append m hfront, List.reverse_append, List.reverse_replicate,
      dropWhile_replicate_append n (by rwa [List.head?_reverse]), List.reverse_reverse]

theorem Bared.subset {cs inner : List Char} (h : Bared cs inner) : inner ⊆ cs := by
  obtain ⟨⟨m, n, rfl⟩, -, -⟩ := h
  exact fun c hc => List.mem_append_right _ (List.mem_append_left _ hc)

/-- One pair of brackets around a text without brackets. -/
theorem bared_parentheses {inner : List Char} (hopen : '(' ∉ inner) (hclose : ')' ∉ inner) :
    Bared ('(' :: (inner ++ [')'])) inner where
  brackets := ⟨1, 1, rfl⟩
  open_ne := fun h => hopen (List.mem_of_head? h)
  close_ne := fun h => hclose (List.mem_of_getLast? h)

/-! ## Counting -/

/-- The text is two numbers with a slash between them, blanks allowed around each. -/
def Counts (inner : List Char) (used total : Nat) : Prop :=
  ∃ a b, inner = a ++ '/' :: b ∧ '/' ∉ a ∧ Numeral.Denotes (Chars.trim a) used ∧
    Numeral.Denotes (Chars.trim b) total

/-- There is no slash in the text, or what stands on one side of the first one is no 32-bit
number. -/
inductive Uncounted (inner : List Char) : Prop
  | noSlash (none : '/' ∉ inner)
  | noNumber {a b side : List Char} (cut : inner = a ++ '/' :: b) (first : '/' ∉ a)
      (either : side = a ∨ side = b)
      (none : ¬ ∃ n < UInt32.size, Numeral.Denotes (Chars.trim side) n)

section Overflow

variable {remark : List String} {inner : List Char}

theorem cut?_unwrap (hbared : Bared (" ".intercalate remark).toList inner) {a b : List Char}
    (hcut : inner = a ++ '/' :: b) (hfirst : '/' ∉ a) :
    Chars.cut? (· == '/') (unwrap (" ".intercalate remark).toList) = some (a, b) := by
  rw [unwrap_eq_iff.2 hbared, hcut]
  exact Chars.cut?_append_cons b hfirst

/-- Two numbers count the locations beyond the used ones. -/
theorem overflowOf_of_counts (hbared : Bared (" ".intercalate remark).toList inner)
    {used total : UInt32} (h : Counts inner used.toNat total.toNat) :
    overflowOf remark = if used ≤ total then total - used else 0 := by
  obtain ⟨a, b, hcut, hfirst, ha, hb⟩ := h
  have hused : Numeral.word32? (Text.trim (String.ofList a)) = some used := by
    rwa [Numeral.word32?_eq_some_iff, Text.trim, String.toList_ofList, String.toList_ofList]
  have htotal : Numeral.word32? (Text.trim (String.ofList b)) = some total := by
    rwa [Numeral.word32?_eq_some_iff, Text.trim, String.toList_ofList, String.toList_ofList]
  simp only [overflowOf, cut?_unwrap hbared hcut hfirst, Option.bind_eq_bind, Option.bind_some,
    hused, htotal]

theorem overflowOf_of_uncounted (hbared : Bared (" ".intercalate remark).toList inner)
    (h : Uncounted inner) : overflowOf remark = 0 := by
  cases h with
  | noSlash hnone =>
    have hcut : Chars.cut? (· == '/') (unwrap (" ".intercalate remark).toList) = none := by
      rw [unwrap_eq_iff.2 hbared]
      exact Chars.cut?_eq_none hnone
    simp only [overflowOf, hcut, Option.bind_eq_bind, Option.bind_none]
  | @noNumber a b side hcut hfirst heither hnone =>
    have hside : Numeral.word32? (Text.trim (String.ofList side)) = none := by
      rwa [Numeral.word32?_eq_none_iff, Text.trim, String.toList_ofList, String.toList_ofList]
    simp only [overflowOf, cut?_unwrap hbared hcut hfirst, Option.bind_eq_bind, Option.bind_some]
    rcases heither with rfl | rfl
    · simp only [hside, Option.bind_none]
    · cases Numeral.word32? (Text.trim (String.ofList a)) <;> simp [hside]

/-- The difference of two counts stops at zero. -/
theorem toNat_excess (used total : UInt32) :
    (if used ≤ total then total - used else 0).toNat = total.toNat - used.toNat := by
  split
  · next h => exact UInt32.toNat_sub_of_le _ _ h
  · next h =>
    have hlt : total.toNat < used.toNat := UInt32.lt_iff_toNat_lt.1 (UInt32.not_le.1 h)
    exact (Nat.sub_eq_zero_of_le (Nat.le_of_lt hlt)).symm

end Overflow

/-! ## Written counts -/

/-- The text is an annotation `(used/total)`. Blanks may stand around the numbers and the slash. -/
def SpellsCounts (cs : List Char) (used total : Nat) : Prop :=
  ∃ us ts, Numeral.Denotes us used ∧ Numeral.Denotes ts total ∧
    Chars.Loose [['('], us, ['/'], ts, [')']] cs

theorem isWord_of_denotes {cs : List Char} {n : Nat} (h : Numeral.Denotes cs n) :
    Chars.IsWord cs :=
  ⟨h.ne_nil, h.forall_mem (by decide) fun _ => Numeral.isBlank_of_isDigit⟩

section Padded

variable {gap gap' cs : List Char} {n : Nat} (hgap : Chars.IsGap gap) (hgap' : Chars.IsGap gap')
  (h : Numeral.Denotes cs n)
include hgap hgap' h

/-- Blanks around a numeral do not count. -/
theorem trim_numeral : Chars.trim (gap ++ (cs ++ gap')) = cs := by
  rw [Chars.trim_gap_append hgap, Chars.trim_append_gap hgap',
    Chars.trim_of_unblank (isWord_of_denotes h).2]

theorem notMem_around_numeral {x : Char} (hblank : Text.isBlank x = false) (hplus : '+' ≠ x)
    (hdigit : x.isDigit = false) : x ∉ gap ++ (cs ++ gap') := by
  have hcs : ∀ c ∈ cs, c ≠ x := h.forall_mem hplus fun c hc => Chars.ne_of_test hc hdigit
  simp only [List.mem_append, not_or]
  refine ⟨fun hx => ?_, fun hx => hcs x hx rfl, fun hx => ?_⟩
  · exact Chars.ne_of_test (hgap x hx) hblank rfl
  · exact Chars.ne_of_test (hgap' x hx) hblank rfl

end Padded

/-- Within its brackets the text is two numbers with a slash between them. -/
theorem SpellsCounts.exists_inner {cs : List Char} {used total : Nat}
    (h : SpellsCounts cs used total) :
    ∃ inner, cs = '(' :: (inner ++ [')']) ∧ '(' ∉ inner ∧ ')' ∉ inner ∧
      Counts inner used total := by
  obtain ⟨us, ts, hused, htotal, hloose⟩ := h
  obtain ⟨g₁, _, hg₁, hloose₁, rfl⟩ := hloose.exists_gap
  obtain ⟨g₂, _, hg₂, hloose₂, rfl⟩ := hloose₁.exists_gap
  obtain ⟨g₃, _, hg₃, hloose₃, rfl⟩ := hloose₂.exists_gap
  obtain ⟨g₄, _, hg₄, hloose₄, rfl⟩ := hloose₃.exists_gap
  obtain rfl := hloose₄.eq_of_singleton
  have houtside : ∀ x, Text.isBlank x = false → '+' ≠ x → x.isDigit = false → x ≠ '/' →
      x ∉ (g₁ ++ (us ++ g₂)) ++ '/' :: (g₃ ++ (ts ++ g₄)) := by
    intro x hblank hplus hdigit hslash hx
    rcases List.mem_append.1 hx with hx | hx
    · exact notMem_around_numeral hg₁ hg₂ hused hblank hplus hdigit hx
    rcases List.mem_cons.1 hx with hx | hx
    · exact hslash hx
    · exact notMem_around_numeral hg₃ hg₄ htotal hblank hplus hdigit hx
  refine ⟨(g₁ ++ (us ++ g₂)) ++ '/' :: (g₃ ++ (ts ++ g₄)), by simp,
    houtside '(' (by decide) (by decide) (by decide) (by decide),
    houtside ')' (by decide) (by decide) (by decide) (by decide), _, _, rfl,
    notMem_around_numeral hg₁ hg₂ hused (by decide) (by decide) (by decide), ?_, ?_⟩
  · rwa [trim_numeral hg₁ hg₂ hused]
  · rwa [trim_numeral hg₃ hg₄ htotal]

/-- On one line the text spells the same numbers. -/
theorem SpellsCounts.oneLine {text : String} {used total : Nat}
    (h : SpellsCounts text.toList used total) :
    SpellsCounts (Text.oneLine text).toList used total := by
  obtain ⟨us, ts, hused, htotal, hloose⟩ := h
  refine ⟨us, ts, hused, htotal, ?_⟩
  rw [Text.toList_oneLine]
  refine hloose.intercalate_words fun piece hpiece => ?_
  simp only [List.mem_cons, List.not_mem_nil, or_false] at hpiece
  rcases hpiece with rfl | rfl | rfl | rfl | rfl
  · decide
  · exact isWord_of_denotes hused
  · decide
  · exact isWord_of_denotes htotal
  · decide

/-- An annotation `(used/total)`. -/
def countText (used total : UInt32) : String :=
  "(" ++ Numeral.digits used.toNat ++ "/" ++ Numeral.digits total.toNat ++ ")"

theorem spellsCounts_countText (used total : UInt32) :
    SpellsCounts (countText used total).toList used.toNat total.toNat := by
  have hdigits : ∀ n : UInt32,
      Numeral.Denotes (Numeral.digits n.toNat).toList n.toNat := fun n =>
    Numeral.unsigned?_eq_some_iff.1 (Numeral.unsigned?_digits n.toNat)
  have htext : (countText used total).toList = ['('] ++ ([] ++
      ((Numeral.digits used.toNat).toList ++ ([] ++ (['/'] ++ ([] ++
        ((Numeral.digits total.toNat).toList ++ ([] ++ [')']))))))) := by
    simp [countText]
  refine ⟨_, _, hdigits used, hdigits total, ?_⟩
  rw [htext]
  exact .cons Chars.isGap_nil <| .cons Chars.isGap_nil <| .cons Chars.isGap_nil <|
    .cons Chars.isGap_nil <| .last _

theorem SpellsCounts.overflowOf {remark : List String} {used total : UInt32}
    (h : SpellsCounts (" ".intercalate remark).toList used.toNat total.toNat) :
    overflowOf remark = if used ≤ total then total - used else 0 := by
  obtain ⟨inner, hcs, hopen, hclose, hcounts⟩ := h.exists_inner
  refine overflowOf_of_counts ?_ hcounts
  rw [hcs]
  exact bared_parentheses hopen hclose

theorem overflowOf_counts (used total : UInt32) :
    overflowOf [countText used total] = if used ≤ total then total - used else 0 := by
  refine SpellsCounts.overflowOf ?_
  rw [String.intercalate_singleton]
  exact spellsCounts_countText used total

theorem overflowOf_of_no_slash {remark : List String} (h : ∀ t ∈ remark, '/' ∉ t.toList) :
    overflowOf remark = 0 := by
  have hjoin : '/' ∉ (" ".intercalate remark).toList := by
    rw [String.toList_intercalate]
    intro hmem
    rcases Chars.mem_intercalate hmem with hmem | ⟨piece, hpiece, hmem⟩
    · exact absurd hmem (by decide)
    · obtain ⟨t, ht, rfl⟩ := List.mem_map.1 hpiece
      exact h t ht hmem
  have hbared : Bared (" ".intercalate remark).toList _ := unwrap_eq_iff.1 rfl
  exact overflowOf_of_uncounted hbared (.noSlash fun hmem => hjoin (hbared.subset hmem))

end Row

end NodeHealth
