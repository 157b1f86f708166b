import NodeHealth.Text.Split
import NodeHealth.Text.Numeral

/-!
# Durations

A duration is written as a number and a unit: `s` or nothing for seconds, `ms` for milliseconds,
`m` for minutes. The number, and a number of minutes in seconds, must fit 64 bits.
-/

namespace NodeHealth

/-- A span of whole milliseconds. -/
structure Duration where
  millis : Nat
  deriving DecidableEq, Repr

namespace Duration

def ofMillis (n : Nat) : Duration := ⟨n⟩

def ofSeconds (n : Nat) : Duration := ⟨1000 * n⟩

/-- Whole seconds. -/
def seconds (d : Duration) : Nat := d.millis / 1000

/-- The nanoseconds beyond the whole seconds. -/
def nanos (d : Duration) : Nat := d.millis % 1000 * 1000000

/-- The units in which durations are written. -/
inductive Unit where
  | second
  | millisecond
  | minute
  deriving DecidableEq, Repr

/-- The span of a number of units; a number of minutes that is too many seconds has none. -/
def ofUnits? (n : Nat) : Unit → Option Duration
  | .second => some (ofSeconds n)
  | .millisecond => some (ofMillis n)
  | .minute => if 60 * n < UInt64.size then some (ofSeconds (60 * n)) else none

/-- A text, read backwards, as the unit at its end and what stands before it. -/
def splitUnit : List Char → Unit × List Char
  | 's' :: 'm' :: rest => (.millisecond, rest)
  | 's' :: rest => (.second, rest)
  | 'm' :: rest => (.minute, rest)
  | rest => (.second, rest)

/-- The duration that a text denotes, blanks around it aside. -/
def ofText? (s : String) : Option Duration :=
  let (unit, number) := splitUnit (Text.trim s).toList.reverse
  (Numeral.word64? (String.ofList number.reverse)).bind (ofUnits? · unit)

/-- The three digits of a fraction without the zeros at its end. -/
def fraction (millis : Nat) : String :=
  let digits := (Nat.toDigits 10 (1000 + millis)).drop 1
  String.ofList (digits.reverse.dropWhile (· == '0')).reverse

/-- A duration as messages show it: milliseconds below one second, else seconds with as many
decimals as it takes. -/
def text (d : Duration) : String :=
  if d.millis == 0 then "0ns"
  else if d.millis < 1000 then Numeral.digits d.millis ++ "ms"
  else if d.millis % 1000 == 0 then Numeral.digits d.seconds ++ "s"
  else Numeral.digits d.seconds ++ "." ++ fraction (d.millis % 1000) ++ "s"

example : ofText? " +5m " = some (ofSeconds 300) ∧ ofText? "5 m" = none := by decide +kernel

example : (ofMillis 1500).text = "1.5s" ∧ (ofMillis 1001).text = "1.001s" ∧
    (ofMillis 7).text = "7ms" ∧ (ofMillis 30000).text = "30s" := by decide +kernel

end Duration

end NodeHealth
