import NodeHealth.Toml.Quoted

/-!
# Blanks, comments and ends of lines

Blanks separate what stands on a line, and a comment goes on to the end of it. Within an array,
line breaks and comments are blanks too (`skipLines`).
-/

namespace NodeHealth.Toml

/-- A reader takes something from the front of a text and gives what follows it. -/
abbrev Reader (α : Type) := List Char → Option (α × List Char)

def skipSpace (cs : List Char) : List Char := cs.dropWhile Quoted.isSpace

/-- What follows the comment that a text may begin with. -/
def skipComment : List Char → List Char
  | '#' :: cs => cs.dropWhile Quoted.isPlain
  | cs => cs

/-- What follows the end of a line, a comment before it included. -/
def lineEnd? (cs : List Char) : Option (List Char) :=
  match skipComment (skipSpace cs) with
  | [] => some []
  | cs => Quoted.break? cs

theorem dropWhile_length_le (p : Char → Bool) (cs : List Char) :
    (cs.dropWhile p).length ≤ cs.length :=
  (List.dropWhile_suffix p).length_le

/-- What follows blanks, line breaks and comments. -/
def skipLines (cs : List Char) : List Char :=
  match _h : Quoted.skipBreaks cs with
  | '#' :: rest => skipLines (rest.dropWhile Quoted.isPlain)
  | cs => cs
termination_by cs.length
decreasing_by
  have h1 := Quoted.skipBreaks_length_le cs
  have h2 := dropWhile_length_le Quoted.isPlain rest
  simp_all only [List.length_cons]
  omega

end NodeHealth.Toml
