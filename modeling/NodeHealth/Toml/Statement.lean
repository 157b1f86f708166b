import NodeHealth.Toml.ValueReader

/-!
# TOML documents

A document is read in two steps. `Statement.readAll` reads its lines into statements: headers,
headers of array elements, and assignments. `Statement.execute` builds the table that the statements
describe. `Table.ofText?` does both.
-/

namespace NodeHealth.Toml

/-- What a line says. -/
inductive Statement where
  | header (path : KeyPath)
  | element (path : KeyPath)
  | assign (path : KeyPath) (v : Value)

namespace Statement

/-- Reads a statement without the end of its line. -/
def readBody : Reader Statement := fun cs =>
  match cs with
  | '[' :: '[' :: rest => do
    let (path, rest) ← keyPath rest
    match rest with
    | ']' :: ']' :: rest => some (.element path, rest)
    | _ => none
  | '[' :: rest => do
    let (path, rest) ← keyPath rest
    match rest with
    | ']' :: rest => some (.header path, rest)
    | _ => none
  | cs => (pair (value (nestingLimit - 1)) cs).map fun ((path, v), rest) => (.assign path v, rest)

/-- Reads a line, which may hold a statement. -/
def readLine : Reader (Option Statement) := fun cs =>
  match lineEnd? cs with
  | some rest => some (none, rest)
  | none => do
    let (s, rest) ← readBody (skipSpace cs)
    let rest ← lineEnd? rest
    some (some s, rest)

/-- The statements of a text. -/
def readAll (cs : List Char) : Option (List Statement) :=
  match cs with
  | [] => some []
  | cs =>
    match readLine cs with
    | none => none
    | some (s, rest) =>
      if _h : rest.length < cs.length then (readAll rest).map (s.toList ++ ·) else none
termination_by cs.length

/-- Extends a document by a statement. The state is the document and the path of the table that
was opened last. -/
def execute : Statement → Table × List String → Option (Table × List String)
  | .header path, (t, _) =>
    (t.within (·.openHeader path.key) path.parents).map (·, path.parents ++ [path.key])
  | .element path, (t, _) =>
    (t.within (·.openElement path.key) path.parents).map (·, path.parents ++ [path.key])
  | .assign path v, (t, current) =>
    (t.within (·.assign path.key v path.parents) current).map (·, current)

end Statement

/-- The document that statements describe. -/
def Table.ofStatements? (ss : List Statement) : Option Table :=
  (ss.foldlM (fun state s => Statement.execute s state) (([], []) : Table × List String)).map (·.1)

/-- The document of a text, which may begin with a byte order mark. -/
def Table.ofText? (s : String) : Option Table :=
  let cs := match s.toList with
    | '\uFEFF' :: cs => cs
    | cs => cs
  (Statement.readAll cs).bind Table.ofStatements?

end NodeHealth.Toml
