import NodeHealth.Verdict.Json
import NodeHealth.Text.Numeral

/-!
# Reporting a verdict

A verdict is reported on one line: as text, the words of its message with single spaces between
them, or as a compact JSON object with the exit status, the instances, that same text and the
label of the status.
-/

namespace NodeHealth

/-- The form of a report. -/
inductive Format where
  | text
  | json
  deriving DecidableEq, Repr

namespace Format

def name : Format → String
  | text => "text"
  | json => "json"

def ofName? (word : String) : Option Format := [text, json].find? (·.name == word)

end Format

namespace Verdict

/-- The message on one line. -/
def line (v : Verdict) : String := Text.oneLine v.message

/-- The report as a JSON value, its members in the order of their keys. -/
def report (v : Verdict) : Json :=
  .object [
    ("code".toList, .number (Numeral.digits v.status.exitCode).toList),
    ("instances".toList, .array (v.instances.map Json.ofString)),
    ("message".toList, Json.ofString v.line),
    ("status".toList, Json.ofString v.status.label)]

/-- The report of a verdict. -/
def render (v : Verdict) : Format → String
  | .text => v.line
  | .json => v.report.compact

end Verdict

end NodeHealth
