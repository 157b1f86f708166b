import NodeHealth.Mount.Escape
import NodeHealth.Text.Split

/-!
# The mount table

One mount per line: its source, its mount point and the type of the file system, and more fields
that no one reads. A line with fewer than three fields is no mount.
-/

namespace NodeHealth

/-- One mount. -/
structure Mount where
  source : String
  mountpoint : String
  fstype : String
  deriving DecidableEq, Repr

namespace Mount

/-- The mount of one line, if the line has the fields for it. -/
def ofLine? (line : String) : Option Mount :=
  match Text.words line with
  | source :: mountpoint :: fstype :: _ => some ⟨source, unescape mountpoint, fstype⟩
  | _ => none

/-- The mounts of a table in order. -/
def ofTable (text : String) : List Mount := (Text.lines text).filterMap ofLine?

end Mount

end NodeHealth
