import Mathlib.Data.List.Chain
import NodeHealth.Proofs.Text.OneLine

/-!
# Tidy texts

A text is tidy if its only blanks are single spaces between characters that are no blanks. Putting
a text on one line makes it tidy, and tidy texts are those that it leaves as they are.

* `Chars.isTidy_append_space`: a space joins two texts to a tidy one if both are tidy and neither is
  empty.
* `Chars.IsTidy.eq_intercalate`: a tidy text is its words with one space between them.
* `Text.oneLine_eq_iff`: the line of a text is the one tidy text with the same words.
-/

namespace NodeHealth

namespace Chars

/-- All blanks are spaces, none stands at an end and no two stand side by side. -/
structure IsTidy (cs : List Char) : Prop where
  spaces : ∀ c ∈ cs, Text.isBlank c = true → c = ' '
  trimmed : IsTrimmed cs
  single : cs.IsChain fun c d => Text.isBlank c = true → Text.isBlank d = false

theorem isTidy_of_unblank {cs : List Char} (h : ∀ c ∈ cs, Text.isBlank c = false) :
    IsTidy cs where
  spaces c hc hblank := by
    rw [h c hc] at hblank
    cases hblank
  trimmed := trim_eq_self_iff.1 (trim_of_unblank h)
  single := by
    refine List.Pairwise.isChain (List.pairwise_of_forall_mem_list ?_)
    exact fun _ _ d hd _ => h d hd

/-! ## A space between two texts -/

section Space

variable {a b : List Char}

theorem isBlank_space : Text.isBlank ' ' = true := by decide

theorem isTrimmed_append_space :
    IsTrimmed (a ++ ' ' :: b) ↔
      (a ≠ [] ∧ ∀ c ∈ a.head?, Text.isBlank c = false) ∧
        b ≠ [] ∧ ∀ c ∈ b.getLast?, Text.isBlank c = false := by
  have hhead : (∀ c ∈ (a ++ ' ' :: b).head?, Text.isBlank c = false) ↔
      a ≠ [] ∧ ∀ c ∈ a.head?, Text.isBlank c = false := by
    cases a <;> simp [isBlank_space]
  have hlast : (∀ c ∈ (a ++ ' ' :: b).getLast?, Text.isBlank c = false) ↔
      b ≠ [] ∧ ∀ c ∈ b.getLast?, Text.isBlank c = false := by
    rw [List.getLast?_append_cons]
    cases b <;> simp [isBlank_space, List.getLast?_cons]
  rw [IsTrimmed, hhead, hlast]

theorem isChain_append_space :
    (a ++ ' ' :: b).IsChain (fun c d => Text.isBlank c = true → Text.isBlank d = false) ↔
      (a.IsChain (fun c d => Text.isBlank c = true → Text.isBlank d = false) ∧
        ∀ c ∈ a.getLast?, Text.isBlank c = false) ∧
      b.IsChain (fun c d => Text.isBlank c = true → Text.isBlank d = false) ∧
        ∀ c ∈ b.head?, Text.isBlank c = false := by
  have hbefore : (∀ c ∈ a.getLast?, ∀ d ∈ (' ' :: b).head?, Text.isBlank c = true →
      Text.isBlank d = false) ↔ ∀ c ∈ a.getLast?, Text.isBlank c = false := by
    simp [isBlank_space]
  have hbehind : (∀ d ∈ b.head?, Text.isBlank ' ' = true → Text.isBlank d = false) ↔
      ∀ c ∈ b.head?, Text.isBlank c = false := by
    simp [isBlank_space]
  rw [List.isChain_append, List.isChain_cons, hbefore, hbehind]
  tauto

/-- A space joins two texts to a tidy one if both are tidy and neither is empty. -/
theorem isTidy_append_space :
    IsTidy (a ++ ' ' :: b) ↔ (IsTidy a ∧ a ≠ []) ∧ IsTidy b ∧ b ≠ [] := by
  constructor
  · rintro ⟨hspaces, htrimmed, hsingle⟩
    obtain ⟨⟨ha, hahead⟩, hb, hblast⟩ := isTrimmed_append_space.1 htrimmed
    obtain ⟨⟨hasingle, halast⟩, hbsingle, hbhead⟩ := isChain_append_space.1 hsingle
    refine ⟨⟨⟨?_, ⟨hahead, halast⟩, hasingle⟩, ha⟩, ⟨?_, ⟨hbhead, hblast⟩, hbsingle⟩, hb⟩
    · exact fun c hc => hspaces c (List.mem_append_left _ hc)
    · exact fun c hc => hspaces c (List.mem_append_right _ (List.mem_cons_of_mem _ hc))
  · rintro ⟨⟨hatidy, ha⟩, hbtidy, hb⟩
    obtain ⟨haspaces, ⟨hahead, halast⟩, hasingle⟩ := hatidy
    obtain ⟨hbspaces, ⟨hbhead, hblast⟩, hbsingle⟩ := hbtidy
    refine ⟨?_, isTrimmed_append_space.2 ⟨⟨ha, hahead⟩, hb, hblast⟩,
      isChain_append_space.2 ⟨⟨hasingle, halast⟩, hbsingle, hbhead⟩⟩
    exact List.forall_mem_append.2 ⟨haspaces, List.forall_mem_cons.2 ⟨fun _ => rfl, hbspaces⟩⟩

end Space

/-! ## Words -/

/-- Words with one space between them are tidy. -/
theorem isTidy_intercalate {ws : List (List Char)} (h : ∀ w ∈ ws, IsWord w) :
    IsTidy ([' '].intercalate ws) := by
  match ws with
  | [] => exact isTidy_of_unblank (List.forall_mem_nil _)
  | [w] =>
    rw [List.intercalate_singleton]
    exact isTidy_of_unblank (h w List.mem_cons_self).2
  | w :: next :: ws =>
    have hw := h w List.mem_cons_self
    have hnext := h next (List.mem_cons_of_mem w List.mem_cons_self)
    have ih := isTidy_intercalate fun v hv => h v (List.mem_cons_of_mem w hv)
    have hne : [' '].intercalate (next :: ws) ≠ [] :=
      (prefix_intercalate [' '] next ws).ne_nil hnext.1
    rw [List.intercalate_cons_cons, List.append_assoc, List.singleton_append]
    exact isTidy_append_space.2 ⟨⟨isTidy_of_unblank hw.2, hw.1⟩, ih, hne⟩

/-- No gap stands before a tidy text. -/
theorem IsTidy.eq_nil_of_isGap {g rest : List Char} (h : IsTidy (g ++ rest)) (hg : IsGap g) :
    g = [] := by
  cases g with
  | nil => rfl
  | cons c g =>
    have hc := h.trimmed.1 c rfl
    rw [hg c List.mem_cons_self] at hc
    cases hc

/-- A tidy text made of some words is these words with one space between them. -/
theorem IsTidy.eq_intercalate {ws : List (List Char)} {cs : List Char} (h : IsTidy cs)
    (hspaced : Spaced ws cs) : cs = [' '].intercalate ws := by
  induction ws generalizing cs with
  | nil =>
    cases hspaced with
    | gap hg => exact IsTidy.eq_nil_of_isGap (by rwa [List.append_nil]) hg
  | cons w ws ih =>
    cases hspaced with
    | @word g _ rest _ hg hw hrest hspaced =>
    obtain rfl := h.eq_nil_of_isGap hg
    cases rest with
    | nil =>
      obtain rfl : [] = ws := words_of_spaced hspaced
      simp
    | cons c rest =>
      -- the blank behind the word is a space, and what follows it is made of the other words
      have hc : Text.isBlank c = true := hrest c rfl
      obtain rfl : c = ' ' := h.spaces c (by simp) hc
      obtain ⟨-, htidy, hne⟩ := isTidy_append_space.1 h
      have hwords : words rest = ws := by
        rw [← words_blank_cons hc, words_of_spaced hspaced]
      have hjoin := ih htidy (words_eq_iff.1 hwords)
      cases ws with
      | nil => exact absurd hjoin hne
      | cons next ws => simp [List.intercalate_cons_cons, ← hjoin]

end Chars

namespace Text

/-- All blanks are spaces, none stands at an end and no two stand side by side. -/
def IsTidy (s : String) : Prop := Chars.IsTidy s.toList

theorem isTidy_append_space {a b : String} :
    IsTidy (a ++ " " ++ b) ↔ (IsTidy a ∧ a ≠ "") ∧ IsTidy b ∧ b ≠ "" := by
  have hchars : (a ++ " " ++ b).toList = a.toList ++ ' ' :: b.toList := by simp
  rw [IsTidy, hchars, Chars.isTidy_append_space]
  simp [IsTidy]

theorem isTidy_oneLine (s : String) : IsTidy (oneLine s) := by
  rw [IsTidy, toList_oneLine]
  exact Chars.isTidy_intercalate fun _ => Chars.isWord_of_mem_words

/-- Tidy texts are those that stay as they are. -/
theorem oneLine_eq_self_iff {s : String} : oneLine s = s ↔ IsTidy s := by
  refine ⟨fun h => h ▸ isTidy_oneLine s, fun h => ?_⟩
  rw [← String.toList_inj, toList_oneLine]
  exact (h.eq_intercalate (Chars.words_eq_iff.1 rfl)).symm

/-- Words with one space between them are tidy. -/
theorem isTidy_intercalate {ws : List String} (h : ∀ w ∈ ws, Chars.IsWord w.toList) :
    IsTidy (" ".intercalate ws) := by
  rw [← oneLine_eq_self_iff, oneLine, words_intercalate h]

/-- The line of a text is the one tidy text with the same words. -/
theorem oneLine_eq_iff {s line : String} :
    oneLine s = line ↔ IsTidy line ∧ words line = words s := by
  constructor
  · rintro rfl
    exact ⟨isTidy_oneLine s, words_oneLine s⟩
  · rintro ⟨htidy, hwords⟩
    rw [← oneLine_eq_self_iff.2 htidy, oneLine, oneLine, hwords]

end Text

end NodeHealth
