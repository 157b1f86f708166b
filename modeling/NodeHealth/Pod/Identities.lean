import NodeHealth.Text.Split

/-!
# Candidate identities

The names and addresses under which a listing may mention the checked node. They keep the order in
which they became known; none is blank, padded or repeated.
-/

namespace NodeHealth

/-- An ordered set of names and addresses. -/
structure Identities where
  entries : List String := []
  deriving DecidableEq, Repr

namespace Identities

def empty : Identities := {}

/-- Whether a text is one of the entries, letter for letter. -/
def contains (ids : Identities) (text : String) : Bool := ids.entries.contains text

/-- Adds a name at the end, without the blanks around it; a blank or known one is passed over. -/
def push (ids : Identities) (name : String) : Identities :=
  let name := Text.trim name
  if name.isEmpty || ids.contains name then ids else { entries := ids.entries ++ [name] }

/-- Adds names one after the other. -/
def extend (ids : Identities) (names : List String) : Identities := names.foldl push ids

/-- The set of the given names. -/
def ofList (names : List String) : Identities := empty.extend names

def size (ids : Identities) : Nat := ids.entries.length

def isEmpty (ids : Identities) : Bool := ids.entries.isEmpty

end Identities

end NodeHealth
