import NodeHealth.Toml.Key
import NodeHealth.Toml.Value
import NodeHealth.Toml.Number
import NodeHealth.Toml.Moment

/-!
# Reading TOML values

A value is a string, a word, a number or a moment (`scalar`), or an array or a table in braces of
such values (`value`).
-/

namespace NodeHealth.Toml

/-- The characters of numbers, moments and words. -/
def isScalarChar (c : Char) : Bool :=
  c.isAlphanum || c = '_' || c = '+' || c = '-' || c = '.' || c = ':'

/-- The value of a word, number or moment. -/
def scalarOf? (run : List Char) : Option Value :=
  if run = "true".toList then some (.boolean true)
  else if run = "false".toList then some (.boolean false)
  else if Moment.isMoment run then some (.moment (String.ofList run))
  else if Number.isFloat run then some (.float (String.ofList run))
  else (Number.integer? run).map .integer

/-- Reads a time of day after a date and a single blank; the blank stands for a `T`. -/
def timeAfterDate (date rest : List Char) : Option (Value × List Char) :=
  match rest with
  | ' ' :: more =>
    let (time, rest) := more.span isScalarChar
    if Moment.isDate date && Moment.isZonedTime time then
      some (.moment (String.ofList (date ++ ' ' :: time)), rest)
    else none
  | _ => none

/-- Reads a string, word, number or moment. -/
def scalar : Reader Value := fun cs =>
  match cs with
  | '"' :: _ | '\'' :: _ =>
    (Quoted.read cs).map fun (s, rest) => (.text (String.ofList s), rest)
  | cs =>
    let (run, rest) := cs.span isScalarChar
    timeAfterDate run rest <|> (scalarOf? run).map (·, rest)

/-- Reads the items of an array after its opening bracket; a comma may follow the last. -/
def items (item : Reader Value) (cs : List Char) : Option (List Value × List Char) :=
  match skipLines cs with
  | ']' :: rest => some ([], rest)
  | cs' =>
    match item cs' with
    | none => none
    | some (v, rest) =>
      match skipLines rest with
      | ']' :: rest => some ([v], rest)
      | ',' :: rest =>
        if _h : rest.length < cs.length then
          (items item rest).map fun (vs, rest) => (v :: vs, rest)
        else none
      | _ => none
termination_by cs.length

/-- Reads a key, an equals sign and a value. -/
def pair (value : Reader Value) : Reader (KeyPath × Value) := fun cs => do
  let (path, rest) ← keyPath cs
  match rest with
  | '=' :: rest =>
    let (v, rest) ← value (skipSpace rest)
    some ((path, v), rest)
  | _ => none

/-- Reads one or more pairs on one line and the brace that closes them. -/
def pairs (value : Reader Value) (cs : List Char) :
    Option (List (KeyPath × Value) × List Char) :=
  match pair value cs with
  | none => none
  | some (p, rest) =>
    match skipSpace rest with
    | '}' :: rest => some ([p], rest)
    | ',' :: rest =>
      if _h : rest.length < cs.length then
        (pairs value rest).map fun (ps, rest) => (p :: ps, rest)
      else none
    | _ => none
termination_by cs.length

/-- Reads the pairs of a table in braces after the opening brace. -/
def braced (value : Reader Value) : Reader (List (KeyPath × Value)) := fun cs =>
  match skipSpace cs with
  | '}' :: rest => some ([], rest)
  | cs => pairs value cs

/-- The table that pairs make. -/
def Table.ofPairs? (ps : List (KeyPath × Value)) : Option Table :=
  ps.foldlM (fun t (path, v) => t.assign path.key v path.parents) []

/-- Reads a value in which arrays and tables in braces are nested at most `depth` deep. -/
def value : (depth : Nat) → Reader Value
  | 0, cs => scalar cs
  | depth + 1, cs =>
    match cs with
    | '[' :: rest => (items (value depth) rest).map fun (vs, rest) => (.array vs, rest)
    | '{' :: rest => do
      let (ps, rest) ← braced (value depth) rest
      let t ← Table.ofPairs? ps
      some (.table .braces t, rest)
    | cs => scalar cs

end NodeHealth.Toml
