import NodeHealth.Pod.Row
import NodeHealth.Pod.Layout
import NodeHealth.Text.Numeral

/-!
# The pod listing

A listing is one pod per line. A line with fewer than nine tokens is a heading, a truncated line
or no pod line at all; such lines, and those whose restart count is no 32-bit number or whose
annotation hides the ip or node, are passed over (`Row.ofLine?`). What remains is read in order
(`Row.ofListing`).
-/

namespace NodeHealth

namespace Row

/-- The least number of tokens of a pod line. -/
def minTokens : Nat := 9

/-- The text of a column, empty for one that is not assigned. -/
def column (token : String) : String := if token == Layout.noneMarker then "" else token

/-- What is left of a text when all `(` at its start and all `)` at its end are taken away. -/
def unwrap (cs : List Char) : List Char :=
  ((cs.dropWhile (· == '(')).reverse.dropWhile (· == ')')).reverse

/-- The locations that an annotation `(used/total)` counts beyond the used ones; an annotation of
any other shape counts none. -/
def overflowOf (remark : List String) : UInt32 :=
  let counts : Option (UInt32 × UInt32) := do
    let (used, total) ← Chars.cut? (· == '/') (unwrap (" ".intercalate remark).toList)
    let used ← Numeral.word32? (Text.trim (String.ofList used))
    let total ← Numeral.word32? (Text.trim (String.ofList total))
    some (used, total)
  match counts with
  | some (used, total) => if used ≤ total then total - used else 0
  | none => 0

/-- The row of the tokens of a line. -/
def ofTokens? (tokens : List String) : Option Row := do
  guard (minTokens ≤ tokens.length)
  let name ← tokens[0]?
  let phase ← tokens[2]?
  let restarts ← Numeral.word32? (← tokens[3]?)
  let layout ← Layout.detect? tokens
  let ip ← tokens[layout.ipIndex]?
  let node ← tokens[layout.nodeIndex]?
  some {
    name, phase, restarts
    ip := column ip
    node := column node
    overflow := (layout.remark? tokens).map overflowOf }

/-- The row of one line, if it is a pod line. -/
def ofLine? (line : String) : Option Row := ofTokens? (Text.words line)

/-- The rows of a listing in order. -/
def ofListing (text : String) : List Row := (Text.lines text).filterMap ofLine?

example :
    ofLine? "p 1/1 Running 3 (1/4) 10.0.0.5 n <none> <none>" =
      some ⟨"p", "Running", 3, "10.0.0.5", "n", some 3⟩ := by decide +kernel

end Row

end NodeHealth
