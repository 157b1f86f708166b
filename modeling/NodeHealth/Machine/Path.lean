import NodeHealth.Text.Split

/-!
# Paths

A path is compared by its components: repeated and trailing slashes do not count, nor does `.`
except at the very front of a relative path.
-/

namespace NodeHealth.Path

/-- A component of a path. -/
inductive Component where
  | root
  | current
  | parent
  | named (name : String)
  deriving DecidableEq, Repr

/-- The component that the text between two slashes stands for, if it counts. -/
def Component.ofPiece? (piece : List Char) : Option Component :=
  if piece = [] || piece = ['.'] then none
  else if piece = ['.', '.'] then some .parent
  else some (.named (String.ofList piece))

/-- The texts between the slashes of a path. -/
def pieces (path : String) : List (List Char) := Chars.splitWhen (· == '/') path.toList

/-- Whether a path begins at the root. -/
def isAbsolute (path : String) : Bool := path.toList.head? == some '/'

/-- The components of a path. -/
def components (path : String) : List Component :=
  let front : List Component :=
    if isAbsolute path then [.root]
    else if (pieces path).head? == some ['.'] then [.current]
    else []
  front ++ (pieces path).filterMap Component.ofPiece?

/-- Whether a path is a spelling of the root directory. -/
def isRoot (path : String) : Bool := components path == [.root]

/-- Whether a path stands for standard input. -/
def isDash (path : String) : Bool := components path == [.named "-"]

example : isRoot "/./" = true ∧ isRoot "//" = true ∧ isRoot "/.." = false ∧ isRoot "." = false := by
  decide +kernel

example : isDash "-" = true ∧ isDash "./-" = false ∧ isDash "-/" = true ∧ isDash "" = false := by
  decide +kernel

end NodeHealth.Path
