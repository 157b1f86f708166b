/-!
# Status codes

The four outcomes of a check. The exit statuses are the convention of monitoring plugins, and the
order of the codes is that of the exit statuses.
-/

namespace NodeHealth

/-- The outcome of a check. -/
inductive Status where
  | ok
  | warning
  | critical
  | unknown
  deriving DecidableEq, Repr

namespace Status

/-- The process exit status. -/
def exitCode : Status → Nat
  | ok => 0
  | warning => 1
  | critical => 2
  | unknown => 3

/-- The word that stands for a code in messages. -/
def label : Status → String
  | ok => "OK"
  | warning => "WARNING"
  | critical => "CRITICAL"
  | unknown => "UNKNOWN"

/-- The code that a word stands for. -/
def ofLabel? (word : String) : Option Status :=
  [ok, warning, critical, unknown].find? (·.label == word)

theorem ofLabel?_label (s : Status) : ofLabel? s.label = some s := by
  cases s <;> decide

instance : LE Status := ⟨fun a b => a.exitCode ≤ b.exitCode⟩

instance (a b : Status) : Decidable (a ≤ b) := inferInstanceAs (Decidable (a.exitCode ≤ b.exitCode))

instance : Ord Status := ⟨fun a b => compare a.exitCode b.exitCode⟩

/-- The more severe of two codes. -/
instance : Max Status := ⟨fun a b => if a ≤ b then b else a⟩

end Status

end NodeHealth
