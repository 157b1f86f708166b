/-!
# Blanks

The blank characters are those with the Unicode property `White_Space`; every splitting and
trimming in this library means them. `isBlank_of_isWhitespace` says that the table extends the
blanks known to the core library.
-/

namespace NodeHealth.Text

/-- Whether a character has the Unicode property `White_Space`. -/
def isBlank (c : Char) : Bool :=
  let n := c.toNat
  (0x09 ≤ n && n ≤ 0x0D) || n == 0x20 || n == 0x85 || n == 0xA0 || n == 0x1680 ||
    (0x2000 ≤ n && n ≤ 0x200A) || n == 0x2028 || n == 0x2029 || n == 0x202F || n == 0x205F ||
    n == 0x3000

theorem isBlank_of_isWhitespace {c : Char} (h : c.isWhitespace = true) : isBlank c = true := by
  simp only [Char.isWhitespace, Bool.or_eq_true, decide_eq_true_eq] at h
  rcases h with ((h | h) | h) | h <;> subst h <;> decide

example : isBlank '\u00a0' = true ∧ isBlank '\u3000' = true ∧ isBlank '\u200b' = false ∧
    isBlank '\x1c' = false := by decide

end NodeHealth.Text
