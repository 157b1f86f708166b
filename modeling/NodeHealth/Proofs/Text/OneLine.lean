import NodeHealth.Proofs.Text.Separated
import NodeHealth.Proofs.Text.Spacing

/-!
# Texts on one line

Putting a text on one line keeps its words and drops everything else: what is left beside them are
single spaces. `Loose pieces cs` says that a text is made of some pieces with blanks put between
them or not; unlike `Spaced`, it leaves open which of the pieces grow together to one word.

* `words_oneLine`: the line has the words of the text.
* `eq_space_of_mem_oneLine`: the only blank in it is the space, so it holds no line break.
* `prefix_oneLine`: it begins with the first words of the text and the spaces between them.
* `words_intercalate`: words with a space between them are read back.
* `Loose.intercalate_words`: it is made of the same pieces as the text.
-/

namespace NodeHealth

namespace Chars

theorem Spaced.isWord {ws : List (List Char)} {cs : List Char} (h : Spaced ws cs) :
    ∀ w ∈ ws, IsWord w := by
  induction h with
  | gap => exact fun w hw => absurd hw List.not_mem_nil
  | word _ hword _ _ ih =>
    intro w hw
    rcases List.mem_cons.1 hw with rfl | hw
    · exact hword
    · exact ih w hw

theorem isWord_of_mem_words {cs w : List Char} (h : w ∈ words cs) : IsWord w :=
  (words_eq_iff.1 rfl).isWord w h

/-- Words with one space between them are a text made of these words. -/
theorem spaced_intercalate {ws : List (List Char)} (h : ∀ w ∈ ws, IsWord w) :
    Spaced ws ([' '].intercalate ws) := by
  match ws with
  | [] => exact .gap isGap_nil
  | [w] =>
    have hw := h w List.mem_cons_self
    have hspaced : Spaced [w] ([] ++ (w ++ [])) := .word isGap_nil hw nofun (.gap isGap_nil)
    simpa using hspaced
  | w :: next :: ws =>
    have hw := h w List.mem_cons_self
    have ih := spaced_intercalate fun x hx => h x (List.mem_cons_of_mem w hx)
    rw [List.intercalate_cons_cons, List.append_assoc]
    refine .word isGap_nil hw ?_ (ih.blank_cons (by decide))
    intro c hc
    cases hc
    decide

/-! ## Pieces that may touch -/

/-- The text is made of the pieces in their order. Blanks may stand between any two of them. -/
inductive Loose : List (List Char) → List Char → Prop
  | last (piece : List Char) : Loose [piece] piece
  | cons {piece gap cs : List Char} {pieces : List (List Char)} : IsGap gap → Loose pieces cs →
      Loose (piece :: pieces) (piece ++ (gap ++ cs))

theorem Loose.eq_of_singleton {piece cs : List Char} (h : Loose [piece] cs) : cs = piece := by
  cases h with
  | last => rfl
  | cons _ h => cases h

theorem Loose.exists_gap {piece next cs : List Char} {pieces : List (List Char)}
    (h : Loose (piece :: next :: pieces) cs) :
    ∃ gap rest, IsGap gap ∧ Loose (next :: pieces) rest ∧ cs = piece ++ (gap ++ rest) := by
  cases h with
  | @cons _ gap rest _ hgap h => exact ⟨gap, rest, hgap, h, rfl⟩

theorem Loose.not_startsBlank {pieces : List (List Char)} {cs : List Char} (h : Loose pieces cs)
    (hpieces : ∀ piece ∈ pieces, IsWord piece) : ¬ StartsBlank cs := by
  obtain ⟨piece, rest, hpiece, rfl⟩ : ∃ piece rest, piece ∈ pieces ∧ cs = piece ++ rest := by
    cases h with
    | last => exact ⟨cs, [], List.mem_singleton_self cs, (List.append_nil cs).symm⟩
    | @cons piece gap rest => exact ⟨piece, gap ++ rest, List.mem_cons_self, rfl⟩
  obtain ⟨hne, hletters⟩ := hpieces piece hpiece
  obtain ⟨c, piece, rfl⟩ := List.exists_cons_of_ne_nil hne
  intro hblank
  have hc := hblank c rfl
  rw [hletters c List.mem_cons_self] at hc
  cases hc

/-- A text that begins with a letter begins with a word. -/
theorem exists_word_append {cs : List Char} (h : ¬ StartsBlank cs) :
    ∃ w rest, IsWord w ∧ StartsBlank rest ∧ cs = w ++ rest := by
  obtain ⟨ws, hspaced⟩ := exists_spaced cs
  cases hspaced with
  | gap hg => exact absurd (fun c hc => hg c (List.mem_of_mem_head? hc)) h
  | @word g w rest ws hg hw hrest hspaced =>
    cases g with
    | nil => exact ⟨w, rest, hw, hrest, rfl⟩
    | cons c g =>
      refine absurd (fun x hx => ?_) h
      cases hx
      exact hg c List.mem_cons_self

/-- On one line a text is made of the same pieces. -/
theorem Loose.intercalate_words {pieces : List (List Char)} {cs : List Char} (h : Loose pieces cs)
    (hpieces : ∀ piece ∈ pieces, IsWord piece) : Loose pieces ([' '].intercalate (words cs)) := by
  induction h with
  | last piece =>
    rw [words_word (hpieces piece List.mem_cons_self), List.intercalate_singleton]
    exact .last piece
  | @cons piece gap cs pieces hgap h ih =>
    have hpiece := hpieces piece List.mem_cons_self
    have hrest : ∀ p ∈ pieces, IsWord p := fun p hp => hpieces p (List.mem_cons_of_mem piece hp)
    have hloose := ih hrest
    obtain ⟨w, rest, hw, hstart, rfl⟩ := exists_word_append (h.not_startsBlank hrest)
    rw [words_word_append hw hstart] at hloose
    cases gap with
    | nil =>
      -- the piece grows together with the first word of what follows
      have hlong : IsWord (piece ++ w) :=
        ⟨List.append_ne_nil_of_left_ne_nil hpiece.1 w, List.forall_mem_append.2 ⟨hpiece.2, hw.2⟩⟩
      have hline : [' '].intercalate ((piece ++ w) :: words rest) =
          piece ++ ([] ++ [' '].intercalate (w :: words rest)) := by
        cases words rest <;> simp [List.intercalate_cons_cons]
      rw [List.nil_append, ← List.append_assoc, words_word_append hlong hstart, hline]
      exact .cons isGap_nil hloose
    | cons c gap =>
      have hblank : StartsBlank (c :: gap ++ (w ++ rest)) := by
        intro x hx
        cases hx
        exact hgap c List.mem_cons_self
      have hspace : IsGap [' '] := List.forall_mem_singleton.2 (by decide)
      rw [words_word_append hpiece hblank, words_gap_append hgap, words_word_append hw hstart,
        List.intercalate_cons_cons, List.append_assoc]
      exact .cons hspace hloose

end Chars

namespace Text

theorem toList_oneLine (s : String) :
    (oneLine s).toList = [' '].intercalate (Chars.words s.toList) := by
  rw [oneLine, String.toList_intercalate, words, List.map_map]
  simp [Function.comp_def]

theorem words_oneLine (s : String) : words (oneLine s) = words s := by
  have hwords : ∀ w ∈ Chars.words s.toList, Chars.IsWord w := fun _ => Chars.isWord_of_mem_words
  rw [words, toList_oneLine, Chars.words_of_spaced (Chars.spaced_intercalate hwords), words]

/-- The only blanks of a line are spaces. -/
theorem eq_space_of_mem_oneLine {s : String} {c : Char} (hc : c ∈ (oneLine s).toList)
    (hblank : isBlank c = true) : c = ' ' := by
  rw [toList_oneLine] at hc
  rcases Chars.mem_intercalate hc with hc | ⟨w, hw, hc⟩
  · exact List.mem_singleton.1 hc
  · have hword := (Chars.isWord_of_mem_words hw).2 c hc
    rw [hblank] at hword
    cases hword

theorem words_append_space (a b : String) : words (a ++ " " ++ b) = words a ++ words b := by
  have hchars : (a ++ " " ++ b).toList = a.toList ++ ' ' :: b.toList := by simp
  rw [words, hchars, Chars.words_append_blank _ _ (by decide), List.map_append, words, words]

theorem isBlank_of_mem_words {text w : String} (hw : w ∈ words text) :
    ∀ c ∈ w.toList, isBlank c = false := by
  obtain ⟨cs, hcs, rfl⟩ := List.mem_map.1 hw
  rw [String.toList_ofList]
  exact (Chars.isWord_of_mem_words hcs).2

theorem isWord_append {front back : String} (hfront : ∀ c ∈ front.toList, isBlank c = false)
    (hback : Chars.IsWord back.toList) : Chars.IsWord (front ++ back).toList := by
  rw [String.toList_append]
  refine ⟨List.append_ne_nil_of_right_ne_nil _ hback.1, ?_⟩
  exact fun c hc => (List.mem_append.1 hc).elim (hfront c) (hback.2 c)

/-- Words with one space between them are read back. -/
theorem words_intercalate {ws : List String} (h : ∀ w ∈ ws, Chars.IsWord w.toList) :
    words (" ".intercalate ws) = ws := by
  have hchars : ∀ w ∈ ws.map String.toList, Chars.IsWord w := by
    intro w hw
    obtain ⟨s, hs, rfl⟩ := List.mem_map.1 hw
    exact h s hs
  have hspaced : Chars.words (" ".intercalate ws).toList = ws.map String.toList := by
    rw [String.toList_intercalate]
    exact Chars.words_of_spaced (Chars.spaced_intercalate hchars)
  rw [words, hspaced, List.map_map]
  simp [Function.comp_def]

/-- A line begins with the first two words of the text and a space between them. -/
theorem prefix_oneLine {s a b : String} {ws : List String} (h : words s = a :: b :: ws) :
    (a ++ " " ++ b).toList <+: (oneLine s).toList := by
  have hline : (oneLine s).toList =
      a.toList ++ (' ' :: [' '].intercalate ((b :: ws).map String.toList)) := by
    rw [oneLine, h, String.toList_intercalate]
    simp [List.intercalate_cons_cons]
  have htail := Chars.prefix_intercalate [' '] b.toList (ws.map String.toList)
  rw [hline]
  simpa using htail

end Text

end NodeHealth
