import NodeHealth.Text.Blank

/-!
# Cutting text into pieces

`splitWhen` cuts a list at every element that satisfies a test; words, lines and fields are all
made of its pieces. Its main law is `splitWhen_append_cons`: a separator cuts a list into two
halves whose pieces do not depend on each other.

* `words`: the maximal runs of characters that are not blank.
* `lines`: the texts between line feeds, a carriage return before a line feed belonging to it.
* `trim`: a text without the blanks at its ends.
* `oneLine`: the words of a text with one space between them.
-/

namespace NodeHealth

namespace Chars

/-- The pieces between the elements that satisfy `p`; always one more than there are of these. -/
def splitWhen {α : Type} (p : α → Bool) : List α → List (List α)
  | [] => [[]]
  | c :: cs =>
    if p c then [] :: splitWhen p cs
    else match splitWhen p cs with
      | [] => [[c]]
      | piece :: pieces => (c :: piece) :: pieces

theorem splitWhen_ne_nil {α : Type} (p : α → Bool) (cs : List α) : splitWhen p cs ≠ [] := by
  cases cs with
  | nil => simp [splitWhen]
  | cons c cs =>
    unfold splitWhen
    split
    · simp
    · split <;> simp

theorem splitWhen_append_cons {α : Type} (p : α → Bool) (a b : List α) {c : α}
    (hc : p c = true) : splitWhen p (a ++ c :: b) = splitWhen p a ++ splitWhen p b := by
  induction a with
  | nil => simp [splitWhen, hc]
  | cons x a ih =>
    simp only [List.cons_append, splitWhen]
    by_cases hx : p x = true
    · simp [hx, ih]
    · simp only [hx, Bool.false_eq_true, if_false, ih]
      cases h : splitWhen p a with
      | nil => exact absurd h (splitWhen_ne_nil p a)
      | cons w ws => simp

/-- The maximal runs of characters that are not blank. -/
def words (cs : List Char) : List (List Char) :=
  (splitWhen Text.isBlank cs).filter (!·.isEmpty)

/-- A text without the blanks at its ends. -/
def trim (cs : List Char) : List Char :=
  ((cs.dropWhile Text.isBlank).reverse.dropWhile Text.isBlank).reverse

/-- A text without one carriage return at its end. -/
def dropReturn (cs : List Char) : List Char :=
  if cs.getLast? = some '\r' then cs.dropLast else cs

/-- The lines among the pieces between line feeds: all but the last piece were ended by a line
feed, and an empty last piece is no line. -/
def ofPieces : List (List Char) → List (List Char)
  | [] => []
  | [piece] => if piece.isEmpty then [] else [piece]
  | piece :: pieces => dropReturn piece :: ofPieces pieces

/-- The lines of a text; a last line needs no line feed and keeps its carriage return. -/
def lines (cs : List Char) : List (List Char) :=
  ofPieces (splitWhen (· == '\n') cs)

/-- What stands before the first separator and what stands after it. -/
def cut? {α : Type} (p : α → Bool) : List α → Option (List α × List α)
  | [] => none
  | c :: cs => if p c then some ([], cs) else (cut? p cs).map fun (a, b) => (c :: a, b)

end Chars

namespace Text

/-- The maximal runs of characters that are not blank. -/
def words (s : String) : List String := (Chars.words s.toList).map String.ofList

/-- The lines of a text: each ends at a line feed, of which a carriage return just before it is
part; text after the last line feed is a line as it stands. -/
def lines (s : String) : List String := (Chars.lines s.toList).map String.ofList

/-- A text without the blanks at its ends. -/
def trim (s : String) : String := String.ofList (Chars.trim s.toList)

/-- The words of a text with one space between them. -/
def oneLine (s : String) : String := " ".intercalate (words s)

example : words " a\t\u3000b  c\n" = ["a", "b", "c"] := by decide +kernel

example : lines "a\r\n\nb\r" = ["a", "", "b\r"] := by decide +kernel

example : lines "" = [] ∧ lines "\n" = [""] := by decide +kernel

end Text

end NodeHealth
