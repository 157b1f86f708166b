/-!
# Letter case

Names that are compared without regard to case fold the letters A to Z and nothing else;
`Char.toLower` is that fold. The comparison is an equivalence (`sameFolded_iff`).
-/

namespace NodeHealth.Text

/-- A text with the letters A to Z made small. -/
def fold (s : String) : List Char := s.toList.map Char.toLower

/-- Whether two texts are equal up to the case of the letters A to Z. -/
def sameFolded (a b : String) : Bool := fold a == fold b

theorem sameFolded_iff {a b : String} : sameFolded a b = true ↔ fold a = fold b := by
  simp [sameFolded]

example : sameFolded "RUNNING" "running" = true ∧ sameFolded "É" "é" = false := by decide +kernel

end NodeHealth.Text
