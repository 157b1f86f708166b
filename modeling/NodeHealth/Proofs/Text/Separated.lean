import Mathlib.Data.List.TakeDrop
import NodeHealth.Text.Split

/-!
# Pieces of a text

Where the first piece of a text ends (`span_append`, `cut?_append_cons`), and what a text made by
`List.intercalate` holds and how it begins.
-/

namespace NodeHealth.Chars

/-- A test that one of two passes and the other does not tells them apart. -/
theorem ne_of_test {α : Type} {p : α → Bool} {a b : α} (ha : p a = true) (hb : p b = false) :
    a ≠ b := by
  rintro rfl
  rw [ha] at hb
  cases hb

/-- The longest beginning that passes a test is the first part, if the second begins otherwise. -/
theorem span_append {α : Type} {p : α → Bool} {front rest : List α}
    (hfront : ∀ c ∈ front, p c = true) (hrest : ∀ c ∈ rest.head?, p c = false) :
    (front ++ rest).span p = (front, rest) := by
  have htake : rest.takeWhile p = [] := by
    cases rest with
    | nil => rfl
    | cons x rest => rw [List.takeWhile_cons_of_neg]; simp [hrest x rfl]
  have hdrop : rest.dropWhile p = rest := by
    cases rest with
    | nil => rfl
    | cons x rest => rw [List.dropWhile_cons_of_neg]; simp [hrest x rfl]
  rw [List.span_eq_takeWhile_dropWhile, List.takeWhile_append_of_pos hfront,
    List.dropWhile_append_of_pos hfront, htake, hdrop, List.append_nil]

/-- The first separator divides a text. -/
theorem cut?_append_cons {a : List Char} (b : List Char) {c : Char} (ha : c ∉ a) :
    cut? (· == c) (a ++ c :: b) = some (a, b) := by
  induction a with
  | nil => simp [cut?]
  | cons x a ih =>
    simp only [List.mem_cons, not_or] at ha
    simp [cut?, Ne.symm ha.1, ih ha.2]

theorem cut?_eq_none {cs : List Char} {c : Char} (h : c ∉ cs) : cut? (· == c) cs = none := by
  induction cs with
  | nil => rfl
  | cons x cs ih =>
    simp only [List.mem_cons, not_or] at h
    simp [cut?, Ne.symm h.1, ih h.2]

variable {α : Type} {sep piece : List α} {pieces : List (List α)}

theorem prefix_intercalate (sep piece : List α) (pieces : List (List α)) :
    piece <+: sep.intercalate (piece :: pieces) := by
  cases pieces with
  | nil => simp
  | cons next pieces =>
    rw [List.intercalate_cons_cons, List.append_assoc]
    exact List.prefix_append piece _

theorem mem_intercalate {x : α} (h : x ∈ sep.intercalate pieces) :
    x ∈ sep ∨ ∃ piece ∈ pieces, x ∈ piece := by
  induction pieces with
  | nil => cases h
  | cons p pieces ih =>
    cases pieces with
    | nil => exact .inr ⟨p, List.mem_singleton_self p, by simpa using h⟩
    | cons next pieces =>
      rw [List.intercalate_cons_cons, List.append_assoc] at h
      rcases List.mem_append.1 h with h | h
      · exact .inr ⟨p, List.mem_cons_self, h⟩
      rcases List.mem_append.1 h with h | h
      · exact .inl h
      rcases ih h with h | ⟨piece, hpiece, h⟩
      · exact .inl h
      · exact .inr ⟨piece, List.mem_cons_of_mem p hpiece, h⟩

theorem infix_intercalate (sep : List α) (h : piece ∈ pieces) :
    piece <:+: sep.intercalate pieces := by
  induction pieces with
  | nil => cases h
  | cons p pieces ih =>
    rcases List.mem_cons.1 h with rfl | h
    · exact (prefix_intercalate sep piece pieces).isInfix
    · rw [List.intercalate_cons_of_ne_nil (List.ne_nil_of_mem h)]
      exact (ih h).trans (List.suffix_append _ _).isInfix

end NodeHealth.Chars
