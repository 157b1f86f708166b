import NodeHealth.Config.Basic
import NodeHealth.Toml.Statement

/-!
# Configuration documents

A configuration is written as a TOML document with one section per part. In a document to be read,
sections and keys may be missing, which leaves their default values in place, and there may be
others, which say nothing. A section may be a table of any kind or an array of the values of its
keys in order; a moment in its place sets nothing. `Config.ofToml` reads a document and judges the
result; `Config.toToml` writes all that a configuration says.
-/

namespace NodeHealth

open Toml (Value Table)

namespace Config

/-! ## Reading -/

/-- The values of a section by position and key. -/
abbrev Section := Nat → String → Option Value

/-- A value in the place of a section. -/
def sectionOf? : Value → Option Section
  | .table _ entries => some fun _ key => Table.get? key entries
  | .array items => some fun i _ => items[i]?
  | .tables newestFirst =>
    some fun i _ => newestFirst.reverse[i]?.map (Value.table .header)
  | .moment _ => some fun _ _ => none
  | _ => none

def text? : Value → Option String
  | .text s => some s
  | _ => none

def texts? : Value → Option (List String)
  | .array items => items.mapM text?
  | _ => none

/-- A 32-bit count. -/
def count? : Value → Option UInt32
  | .integer n => Numeral.word32OfInt? n
  | _ => none

/-- The value of a key as `read` understands it; the default if there is none. -/
def field {α : Type} (read : Value → Option α) (s : Section) (i : Nat) (key : String)
    (default : α) : Option α :=
  match s i key with
  | none => some default
  | some v => read v

def kubectlOf? (s : Section) : Option KubectlConfig := do
  let d : KubectlConfig := {}
  some {
    binary := ← field text? s 0 "binary" d.binary
    kubeconfig := ← field (fun v => (text? v).map some) s 1 "kubeconfig" d.kubeconfig
    podNamespace := ← field text? s 2 "namespace" d.podNamespace
    selector := ← field text? s 3 "selector" d.selector
    timeout := ← field text? s 4 "timeout" d.timeout }

def thresholdsOf? (s : Section) : Option Thresholds := do
  let d : Thresholds := {}
  some {
    warn := ← field count? s 0 "warn" d.warn
    crit := ← field count? s 1 "crit" d.crit }

def checkOf? (s : Section) : Option CheckConfig := do
  let d : CheckConfig := {}
  some {
    subject := ← field text? s 0 "subject" d.subject
    nameStart := ← field text? s 1 "name_prefix" d.nameStart }

def mountsOf? (s : Section) : Option MountsConfig := do
  let d : MountsConfig := {}
  some {
    table := ← field text? s 0 "table" d.table
    sources := ← field texts? s 1 "sources" d.sources }

/-- The part that a section of a document says. -/
def part {α : Type} (read : Section → Option α) (t : Table) (key : String) (default : α) :
    Option α :=
  match t.get? key with
  | none => some default
  | some v => (sectionOf? v).bind read

/-- The configuration that a document says, not judged. -/
def ofTable? (t : Table) : Option Config := do
  let d : Config := {}
  some {
    kubectl := ← part kubectlOf? t "kubectl" d.kubectl
    thresholds := ← part thresholdsOf? t "thresholds" d.thresholds
    check := ← part checkOf? t "check" d.check
    mounts := ← part mountsOf? t "mounts" d.mounts }

/-- Reads a configuration and judges it. -/
def ofToml (text : String) : Except ConfigError Config :=
  match (Table.ofText? text).bind ofTable? with
  | none => .error .malformed
  | some c => c.validate.map fun _ => c

/-! ## Writing -/

/-- A text as a string. -/
def writeText (s : String) : List Char := Toml.Quoted.write s.toList

/-- Texts as an array: on one line if there is at most one, else one per line. -/
def writeTexts : List String → List Char
  | [] => "[]".toList
  | [s] => '[' :: writeText s ++ [']']
  | ss => '[' :: ss.flatMap (fun s => "\n    ".toList ++ writeText s ++ [',']) ++ "\n]".toList

def writeCount (n : UInt32) : List Char := Nat.toDigits 10 n.toNat

/-- A line that gives a key a value. -/
def assignment (key : String) (v : List Char) : List Char :=
  key.toList ++ " = ".toList ++ v ++ ['\n']

/-- The line that opens a section. -/
def heading (key : String) : List Char := '[' :: key.toList ++ "]\n".toList

def writeKubectl (k : KubectlConfig) : List Char :=
  heading "kubectl" ++
    assignment "binary" (writeText k.binary) ++
    (match k.kubeconfig with
      | some path => assignment "kubeconfig" (writeText path)
      | none => []) ++
    assignment "namespace" (writeText k.podNamespace) ++
    assignment "selector" (writeText k.selector) ++
    assignment "timeout" (writeText k.timeout)

def writeThresholds (t : Thresholds) : List Char :=
  heading "thresholds" ++
    assignment "warn" (writeCount t.warn) ++
    assignment "crit" (writeCount t.crit)

def writeCheck (c : CheckConfig) : List Char :=
  heading "check" ++
    assignment "subject" (writeText c.subject) ++
    assignment "name_prefix" (writeText c.nameStart)

def writeMounts (m : MountsConfig) : List Char :=
  heading "mounts" ++
    assignment "table" (writeText m.table) ++
    assignment "sources" (writeTexts m.sources)

/-- A configuration as a document: its sections with an empty line between them. -/
def toToml (c : Config) : String :=
  String.ofList
    (writeKubectl c.kubectl ++ '\n' :: writeThresholds c.thresholds ++ '\n' ::
      writeCheck c.check ++ '\n' :: writeMounts c.mounts)

end Config

end NodeHealth
