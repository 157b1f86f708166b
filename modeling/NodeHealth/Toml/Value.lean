/-!
# TOML values and tables

A document is a table. Where a table came from decides how it may be extended: a table in braces
not at all, a table that only a longer header implied by a header of its own, a table that a dotted
key made by further dotted keys. `Table.openHeader`, `Table.openElement` and `Table.assign` extend
a table by those rules and fail where they forbid it.
-/

namespace NodeHealth.Toml

/-- What made a table. -/
inductive Origin where
  /-- Braces; the table is complete. -/
  | braces
  /-- A header of its own. -/
  | header
  /-- The header of a table within it. -/
  | implied
  /-- A dotted key. -/
  | dotted
  deriving DecidableEq, Repr

/-- A TOML value. Numbers that are not integers, and moments, keep their spelling. -/
inductive Value where
  | text (s : String)
  | integer (n : Int)
  | float (spelling : String)
  | boolean (b : Bool)
  | moment (spelling : String)
  | array (items : List Value)
  | table (origin : Origin) (entries : List (String × Value))
  /-- An array made of headers, the newest table first. -/
  | tables (newestFirst : List (List (String × Value)))

/-- The entries of a table in the order in which they came up. -/
abbrev Table := List (String × Value)

namespace Table

/-- The value of a key. -/
def get? (key : String) (t : Table) : Option Value := t.lookup key

/-- Gives a key a value, in its old place if it has one. -/
def put (key : String) (v : Value) : Table → Table
  | [] => [(key, v)]
  | (k, w) :: t => if k == key then (k, v) :: t else (k, w) :: put key v t

/-- Changes the table that a header leads to. Missing tables on the way are implied, and of an array
of tables the newest is meant. -/
def within (f : Table → Option Table) : List String → Table → Option Table
  | [], t => f t
  | key :: keys, t =>
    match t.get? key with
    | none => (within f keys []).map fun sub => t.put key (.table .implied sub)
    | some (.table .braces _) => none
    | some (.table origin sub) => (within f keys sub).map fun sub => t.put key (.table origin sub)
    | some (.tables (sub :: older)) =>
      (within f keys sub).map fun sub => t.put key (.tables (sub :: older))
    | some _ => none

/-- Opens a table by its header. A table opens only once. -/
def openHeader (key : String) (t : Table) : Option Table :=
  match t.get? key with
  | none => some (t.put key (.table .header []))
  | some (.table .implied sub) => some (t.put key (.table .header sub))
  | some _ => none

/-- Opens a further table of an array of tables. -/
def openElement (key : String) (t : Table) : Option Table :=
  match t.get? key with
  | none => some (t.put key (.tables [[]]))
  | some (.tables subs) => some (t.put key (.tables ([] :: subs)))
  | some _ => none

/-- Gives a dotted key a value. The table that holds the value must be the given one or one made
by dotted keys. -/
def assign (key : String) (v : Value) : (parents : List String) → Table → Option Table
  | [], t => if (t.get? key).isSome then none else some (t.put key v)
  | parent :: parents, t =>
    match t.get? parent with
    | none => (assign key v parents []).map fun sub => t.put parent (.table .dotted sub)
    | some (.table origin sub) =>
      if origin = .dotted || (origin = .implied && !parents.isEmpty) then
        (assign key v parents sub).map fun sub => t.put parent (.table origin sub)
      else none
    | some (.tables (sub :: older)) =>
      if parents.isEmpty then none
      else (assign key v parents sub).map fun sub => t.put parent (.tables (sub :: older))
    | some _ => none

end Table

end NodeHealth.Toml
