import NodeHealth.Verdict.Basic
import NodeHealth.Json.Value
import NodeHealth.Text.Split

/-!
# Verdicts as JSON

`Verdict.toJson` is the stored form of a verdict and `Verdict.ofJson?` reads it. The stored form
has the members `code`, `message` and, unless it is empty, `instances`. Read are also objects with
further members or with the members in another order, the list of the three values, and a code
written as an object with the code as its only key.
-/

namespace NodeHealth

/-- The status that a value stands for. -/
def Status.ofJson? : Json → Option Status
  | .object [(key, .null)] => (Json.text? (.string key)).bind Status.ofLabel?
  | j => j.text?.bind Status.ofLabel?

namespace Verdict

/-- The texts in an array. -/
def texts? : Json → Option (List String)
  | .array items => items.mapM Json.text?
  | _ => none

/-- The stored form of a verdict. -/
def toJson (v : Verdict) : Json :=
  .object (("code".toList, Json.ofString v.status.label) ::
    ("message".toList, Json.ofString v.message) ::
    if v.instances.isEmpty then []
    else [("instances".toList, Json.array (v.instances.map Json.ofString))])

/-- A verdict from the values of its parts; missing instances are none. -/
def ofParts? (code message : Json) (instances : Option Json) : Option Verdict := do
  let status ← Status.ofJson? code
  let message ← message.text?
  let instances ← match instances with
    | some j => texts? j
    | none => some []
  some { status, message, instances }

/-- The value of the only member with a key; `none` stands for two members with that key. -/
def uniqueMember? (key : String) (members : List (String × Json)) : Option (Option Json) :=
  match members.filter (·.1 == key) with
  | [] => some none
  | [(_, j)] => some (some j)
  | _ => none

/-- The verdict that a value stands for. -/
def ofJson? : Json → Option Verdict
  | .object members => do
    let members ← members.mapM fun (key, j) => (Json.text? (.string key)).map (·, j)
    let code ← uniqueMember? "code" members
    let message ← uniqueMember? "message" members
    let instances ← uniqueMember? "instances" members
    ofParts? (← code) (← message) instances
  | .array [code, message] => ofParts? code message none
  | .array [code, message, instances] => ofParts? code message (some instances)
  | _ => none

/-- The verdict that a text holds. -/
def ofJsonText? (s : String) : Option Verdict := (Json.ofText? s).bind ofJson?

end Verdict

end NodeHealth
