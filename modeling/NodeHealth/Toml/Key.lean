import NodeHealth.Toml.Line

/-!
# TOML keys

A key is a bare word or a string on one line. Keys with dots between them lead from a table into the
tables within it; `keyPath` reads them.
-/

namespace NodeHealth.Toml

/-- A dotted key: the keys before the last dot, and the last key. -/
structure KeyPath where
  parents : List String
  key : String
  deriving DecidableEq, Repr

def KeyPath.length (p : KeyPath) : Nat := p.parents.length + 1

/-- Values and keys are nested less than this deep. -/
def nestingLimit : Nat := 80

def isBareKeyChar (c : Char) : Bool := c.isAlphanum || c = '_' || c = '-'

/-- Reads a key without dots: bare, or a string on one line. -/
def simpleKey : Reader String := fun cs =>
  match cs.span isBareKeyChar with
  | ([], _) => (Quoted.readLine cs).map fun (key, rest) => (String.ofList key, rest)
  | (key, rest) => some (String.ofList key, rest)

/-- Reads keys with dots between them and blanks around them. -/
def keys (cs : List Char) : Option (List String × List Char) :=
  match simpleKey (skipSpace cs) with
  | none => none
  | some (key, rest) =>
    match skipSpace rest with
    | '.' :: rest =>
      if _h : rest.length < cs.length then
        (keys rest).map fun (more, rest) => (key :: more, rest)
      else none
    | rest => some ([key], rest)
termination_by cs.length

/-- A path from its keys. -/
def KeyPath.ofKeys? : List String → Option KeyPath
  | [] => none
  | [key] => some ⟨[], key⟩
  | key :: keys => (ofKeys? keys).map fun p => ⟨key :: p.parents, p.key⟩

/-- Reads a dotted key. -/
def keyPath : Reader KeyPath := fun cs => do
  let (keys, rest) ← keys cs
  let path ← KeyPath.ofKeys? keys
  if path.length < nestingLimit then some (path, rest) else none

end NodeHealth.Toml
