import NodeHealth.Text.Split

/-!
# Words and the blanks between them

`Spaced ws cs` says that a text `cs` is made of the words `ws`: blanks may stand before, between and
behind them, and between any two of them there is at least one. What the blanks are is left open,
so this is the relation that reading words undoes.

* `words_eq_iff`: the words of a text are the one list that it is made of.
* `Spaced.cut`: a beginning of a text made of words is made of the first of these words, the last of
  them whole or cut short.
* `trim_gap_append`, `trim_append_gap`: trimming does not see the blanks put around a text.
* `trim_eq_self_iff`: the texts that trimming leaves as they are.
-/

namespace NodeHealth.Chars

/-- A text that blanks can delimit: not empty and without blanks. -/
def IsWord (w : List Char) : Prop := w ≠ [] ∧ ∀ c ∈ w, Text.isBlank c = false

instance (w : List Char) : Decidable (IsWord w) :=
  decidable_of_iff (w.isEmpty = false ∧ w.any Text.isBlank = false) (by
    rw [IsWord, List.isEmpty_eq_false_iff, List.any_eq_false]
    simp only [Bool.not_eq_true])

/-- A run of blanks, which may be empty. -/
def IsGap (g : List Char) : Prop := ∀ c ∈ g, Text.isBlank c = true

theorem isGap_nil : IsGap [] := List.forall_mem_nil _

/-- No word continues into the text: it is empty or begins with a blank. -/
def StartsBlank (cs : List Char) : Prop := ∀ c ∈ cs.head?, Text.isBlank c = true

/-- The text is made of the words, with blanks around them. -/
inductive Spaced : List (List Char) → List Char → Prop
  | gap {g : List Char} : IsGap g → Spaced [] g
  | word {g w cs : List Char} {ws : List (List Char)} : IsGap g → IsWord w → StartsBlank cs →
      Spaced ws cs → Spaced (w :: ws) (g ++ (w ++ cs))

/-! ## Splitting -/

/-- What no separator stands in lengthens the first piece behind it. -/
theorem splitWhen_append_of_forall {α : Type} {p : α → Bool} {w cs piece : List α}
    {pieces : List (List α)} (hw : ∀ c ∈ w, p c = false) (h : splitWhen p cs = piece :: pieces) :
    splitWhen p (w ++ cs) = (w ++ piece) :: pieces := by
  induction w with
  | nil => exact h
  | cons c w ih =>
    have hc : p c = false := hw c List.mem_cons_self
    rw [List.cons_append, splitWhen, ih fun x hx => hw x (List.mem_cons_of_mem c hx)]
    simp [hc]

/-- Nothing is cut where no element is a separator. -/
theorem splitWhen_of_forall {α : Type} {p : α → Bool} {cs : List α} (h : ∀ c ∈ cs, p c = false) :
    splitWhen p cs = [cs] := by
  have hend : splitWhen p [] = [[]] := rfl
  have hcut := splitWhen_append_of_forall h hend
  rwa [List.append_nil] at hcut

theorem words_append_blank (a b : List Char) {c : Char} (hc : Text.isBlank c = true) :
    words (a ++ c :: b) = words a ++ words b := by
  unfold words
  rw [splitWhen_append_cons _ a b hc, List.filter_append]

theorem words_blank_cons {c : Char} (hc : Text.isBlank c = true) (cs : List Char) :
    words (c :: cs) = words cs := by
  have h := words_append_blank [] cs hc
  rwa [List.nil_append] at h

theorem words_gap_append {g : List Char} (hg : IsGap g) (cs : List Char) :
    words (g ++ cs) = words cs := by
  induction g with
  | nil => rfl
  | cons c g ih =>
    rw [List.cons_append, words_blank_cons (hg c List.mem_cons_self)]
    exact ih fun x hx => hg x (List.mem_cons_of_mem c hx)

theorem words_gap {g : List Char} (hg : IsGap g) : words g = [] := by
  have h := words_gap_append hg []
  rwa [List.append_nil] at h

theorem words_word {w : List Char} (hw : IsWord w) : words w = [w] := by
  unfold words
  rw [splitWhen_of_forall hw.2]
  simp [hw.1]

theorem words_word_append {w cs : List Char} (hw : IsWord w) (hcs : StartsBlank cs) :
    words (w ++ cs) = w :: words cs := by
  cases cs with
  | nil => rw [List.append_nil, words_word hw]; rfl
  | cons c cs =>
    have hc : Text.isBlank c = true := hcs c rfl
    rw [words_append_blank w cs hc, words_blank_cons hc, words_word hw]
    rfl

/-! ## Reading undoes spacing -/

theorem words_of_spaced {ws : List (List Char)} {cs : List Char} (h : Spaced ws cs) :
    words cs = ws := by
  induction h with
  | gap hg => exact words_gap hg
  | word hg hw hcs _ ih => rw [words_gap_append hg, words_word_append hw hcs, ih]

theorem Spaced.blank_cons {ws : List (List Char)} {cs : List Char} (h : Spaced ws cs) {c : Char}
    (hc : Text.isBlank c = true) : Spaced ws (c :: cs) := by
  have hgap : ∀ {g : List Char}, IsGap g → IsGap (c :: g) := by
    intro g hg x hx
    rcases List.mem_cons.1 hx with rfl | hx
    · exact hc
    · exact hg x hx
  cases h with
  | gap hg => exact .gap (hgap hg)
  | word hg hw hcs h => exact .word (hgap hg) hw hcs h

/-- A character that is no blank begins a new word or lengthens the first one. -/
theorem Spaced.letter_cons {ws : List (List Char)} {cs : List Char} (h : Spaced ws cs) {c : Char}
    (hc : Text.isBlank c = false) : ∃ ws', Spaced ws' (c :: cs) := by
  have hone : IsWord [c] := by
    refine ⟨List.cons_ne_nil c [], ?_⟩
    intro x hx
    rw [List.mem_singleton.1 hx]
    exact hc
  cases h with
  | gap hg =>
    refine ⟨[[c]], .word isGap_nil hone ?_ (.gap hg)⟩
    exact fun x hx => hg x (List.mem_of_mem_head? hx)
  | @word g w cs ws hg hw hcs h =>
    cases g with
    | nil =>
      refine ⟨(c :: w) :: ws, .word isGap_nil ⟨List.cons_ne_nil c w, ?_⟩ hcs h⟩
      intro x hx
      rcases List.mem_cons.1 hx with rfl | hx
      · exact hc
      · exact hw.2 x hx
    | cons b g =>
      refine ⟨[c] :: w :: ws, .word isGap_nil hone ?_ (.word hg hw hcs h)⟩
      intro x hx
      cases hx
      exact hg b List.mem_cons_self

theorem exists_spaced (cs : List Char) : ∃ ws, Spaced ws cs := by
  induction cs with
  | nil => exact ⟨[], .gap isGap_nil⟩
  | cons c cs ih =>
    obtain ⟨ws, h⟩ := ih
    cases hc : Text.isBlank c with
    | true => exact ⟨ws, h.blank_cons hc⟩
    | false => exact h.letter_cons hc

/-- The words of a text are the one list that it is made of. -/
theorem words_eq_iff {ws : List (List Char)} {cs : List Char} : words cs = ws ↔ Spaced ws cs := by
  refine ⟨fun h => ?_, words_of_spaced⟩
  obtain ⟨ws', h'⟩ := exists_spaced cs
  rwa [← h, words_of_spaced h']

/-! ## Ends of a spaced text -/

theorem StartsBlank.append_blank {cs : List Char} (h : StartsBlank cs) {c : Char}
    (hc : Text.isBlank c = true) : StartsBlank (cs ++ [c]) := by
  intro x hx
  cases cs with
  | nil => cases hx; exact hc
  | cons y cs => exact h x hx

theorem Spaced.append_blank {ws : List (List Char)} {cs : List Char} (h : Spaced ws cs) {c : Char}
    (hc : Text.isBlank c = true) : Spaced ws (cs ++ [c]) := by
  induction h with
  | gap hg =>
    refine .gap ?_
    intro x hx
    rcases List.mem_append.1 hx with hx | hx
    · exact hg x hx
    · rw [List.mem_singleton.1 hx]
      exact hc
  | word hg hw hcs _ ih =>
    rw [List.append_assoc, List.append_assoc]
    exact .word hg hw (hcs.append_blank hc) ih

theorem prefix_append_cases {α : Type} {q a b : List α} (h : q <+: a ++ b) :
    q <+: a ∨ ∃ r, q = a ++ r ∧ r <+: b := by
  obtain ⟨t, ht⟩ := h
  rcases List.append_eq_append_iff.1 ht with ⟨r, ha, _⟩ | ⟨r, hq, hb⟩
  · exact .inl ⟨r, ha.symm⟩
  · exact .inr ⟨r, hq, t, hb.symm⟩

theorem StartsBlank.of_prefix {q cs : List Char} (h : StartsBlank cs) (hq : q <+: cs) :
    StartsBlank q := by
  intro c hc
  cases q with
  | nil => cases hc
  | cons x q =>
    obtain ⟨t, rfl⟩ := hq
    exact h c hc

/-- What a beginning of a text made of words is made of: the first of them, all whole, or with the
last of them cut short. -/
theorem Spaced.cut {ws : List (List Char)} {cs q : List Char} (h : Spaced ws cs) (hq : q <+: cs) :
    (∃ n ≤ ws.length, Spaced (ws.take n) q) ∨
      ∃ n a b, a ≠ [] ∧ b ≠ [] ∧ ws[n]? = some (a ++ b) ∧ Spaced (ws.take n ++ [a]) q := by
  induction h generalizing q with
  | gap hg => exact .inl ⟨0, Nat.zero_le _, .gap fun c hc => hg c (hq.subset hc)⟩
  | @word g w cs ws hg hw hcs _ ih =>
    rcases prefix_append_cases hq with hq | ⟨q, rfl, hq'⟩
    · exact .inl ⟨0, Nat.zero_le _, .gap fun c hc => hg c (hq.subset hc)⟩
    rcases prefix_append_cases hq' with hw' | ⟨r, rfl, hr⟩
    · -- the cut falls before the word, within it or right behind it
      obtain ⟨b, rfl⟩ := hw'
      have hend : Spaced [] [] := .gap isGap_nil
      have hnone : StartsBlank [] := by
        intro c hc
        cases hc
      by_cases hq : q = []
      · subst hq
        exact .inl ⟨0, Nat.zero_le _, .gap (by rwa [List.append_nil])⟩
      have hfront : IsWord q := ⟨hq, fun c hc => hw.2 c (List.mem_append_left b hc)⟩
      have hspaced : Spaced [q] (g ++ q) := by
        have := Spaced.word hg hfront hnone hend
        rwa [List.append_nil] at this
      by_cases hb : b = []
      · subst hb
        exact .inl ⟨1, Nat.le_add_left 1 _, by rw [List.append_nil]; exact hspaced⟩
      · exact .inr ⟨0, q, b, hq, hb, rfl, hspaced⟩
    · rcases ih hr with ⟨n, hle, hn⟩ | ⟨n, a, b, ha, hb, hab, hn⟩
      · exact .inl ⟨n + 1, Nat.succ_le_succ hle, .word hg hw (hcs.of_prefix hr) hn⟩
      · exact .inr ⟨n + 1, a, b, ha, hb, hab, .word hg hw (hcs.of_prefix hr) hn⟩

/-! ## Trimming -/

theorem trim_gap_append {g : List Char} (hg : IsGap g) (cs : List Char) :
    trim (g ++ cs) = trim cs := by
  rw [trim, List.dropWhile_append_of_pos hg, trim]

theorem trim_append_gap {g : List Char} (hg : IsGap g) (cs : List Char) :
    trim (cs ++ g) = trim cs := by
  have hnil : g.dropWhile Text.isBlank = [] := by
    rw [← List.append_nil g, List.dropWhile_append_of_pos hg, List.dropWhile_nil]
  rw [trim, List.dropWhile_append]
  split
  · next h => rw [hnil, trim, List.isEmpty_iff.1 h]
  · rw [List.reverse_append, List.dropWhile_append_of_pos, trim]
    exact fun c hc => hg c (List.mem_reverse.1 hc)

/-- No blank stands at either end of a text. -/
def IsTrimmed (cs : List Char) : Prop :=
  (∀ c ∈ cs.head?, Text.isBlank c = false) ∧ ∀ c ∈ cs.getLast?, Text.isBlank c = false

theorem dropWhile_of_head {α : Type} {p : α → Bool} {cs : List α}
    (h : ∀ c ∈ cs.head?, p c = false) : cs.dropWhile p = cs := by
  cases cs with
  | nil => rfl
  | cons c cs => exact List.dropWhile_cons_of_neg (by simp [h c rfl])

theorem head_dropWhile {α : Type} (p : α → Bool) (cs : List α) :
    ∀ c ∈ (cs.dropWhile p).head?, p c = false := by
  intro c hc
  have h := List.head?_dropWhile_not p cs
  rw [Option.mem_def.1 hc] at h
  exact h

theorem trim_of_isTrimmed {cs : List Char} (h : IsTrimmed cs) : trim cs = cs := by
  have hback : ∀ c ∈ cs.reverse.head?, Text.isBlank c = false := by
    rw [List.head?_reverse]
    exact h.2
  rw [trim, dropWhile_of_head h.1, dropWhile_of_head hback, List.reverse_reverse]

theorem isTrimmed_trim (cs : List Char) : IsTrimmed (trim cs) := by
  unfold trim
  refine ⟨?_, ?_⟩
  · -- what is dropped behind leaves the first character in its place
    intro c hc
    rw [List.head?_reverse] at hc
    obtain ⟨dropped, hfront⟩ := List.dropWhile_suffix (l := (cs.dropWhile Text.isBlank).reverse)
      Text.isBlank
    have hlast : (cs.dropWhile Text.isBlank).reverse.getLast? = some c := by
      rw [← hfront, List.getLast?_append, Option.mem_def.1 hc]
      rfl
    rw [List.getLast?_reverse] at hlast
    exact head_dropWhile Text.isBlank cs c hlast
  · rw [List.getLast?_reverse]
    exact head_dropWhile Text.isBlank _

/-- Trimming leaves the texts as they are that have no blank at either end. -/
theorem trim_eq_self_iff {cs : List Char} : trim cs = cs ↔ IsTrimmed cs := by
  refine ⟨fun h => ?_, trim_of_isTrimmed⟩
  rw [← h]
  exact isTrimmed_trim cs

theorem trim_of_unblank {cs : List Char} (h : ∀ c ∈ cs, Text.isBlank c = false) : trim cs = cs :=
  trim_of_isTrimmed ⟨fun c hc => h c (List.mem_of_mem_head? hc),
    fun c hc => h c (List.mem_of_getLast? hc)⟩

end NodeHealth.Chars

namespace NodeHealth.Text

/-- A carriage return at the end of a line is no part of its words. -/
theorem words_append_return (line : String) : words (line ++ "\r") = words line := by
  have hchars : (line ++ "\r").toList = line.toList ++ '\r' :: [] := by simp
  have hnone : Chars.words [] = [] := rfl
  rw [words, hchars, Chars.words_append_blank _ _ (by decide), hnone, List.append_nil, words]

theorem trim_eq_self_iff {s : String} : trim s = s ↔ Chars.IsTrimmed s.toList := by
  rw [trim, ← Chars.trim_eq_self_iff, ← String.toList_inj, String.toList_ofList]

theorem trim_trim (s : String) : trim (trim s) = trim s := by
  rw [trim_eq_self_iff, trim, String.toList_ofList]
  exact Chars.isTrimmed_trim s.toList

end NodeHealth.Text
