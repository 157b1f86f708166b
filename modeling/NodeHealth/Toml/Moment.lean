/-!
# TOML dates and times

A moment is a date, a time of day, or a date and a time with an optional offset from universal
time. The calendar is the Gregorian one, and a minute may have a leap second.
-/

namespace NodeHealth.Toml.Moment

/-- The number that exactly `n` digits at the front of a text denote, and the rest. -/
def digits? (n : Nat) (cs : List Char) : Option (Nat × List Char) :=
  let ds := cs.take n
  if ds.length == n && ds.all Char.isDigit then some (Nat.ofDigitChars 10 ds 0, cs.drop n)
  else none

/-- Takes a given character from the front of a text. -/
def expect? (c : Char) : List Char → Option (List Char)
  | d :: cs => if d = c then some cs else none
  | [] => none

def isLeapYear (year : Nat) : Bool := year % 4 == 0 && (year % 100 != 0 || year % 400 == 0)

def daysOf (year month : Nat) : Nat :=
  if month == 2 then if isLeapYear year then 29 else 28
  else if [4, 6, 9, 11].contains month then 30
  else 31

/-- What follows a date. -/
def date? (cs : List Char) : Option (List Char) := do
  let (year, cs) ← digits? 4 cs
  let (month, cs) ← digits? 2 (← expect? '-' cs)
  let (day, cs) ← digits? 2 (← expect? '-' cs)
  if 1 ≤ month && month ≤ 12 && 1 ≤ day && day ≤ daysOf year month then some cs else none

/-- What follows an hour and a minute. -/
def clock? (cs : List Char) : Option (List Char) := do
  let (hour, cs) ← digits? 2 cs
  let (minute, cs) ← digits? 2 (← expect? ':' cs)
  if hour ≤ 23 && minute ≤ 59 then some cs else none

/-- What follows a time of day. -/
def time? (cs : List Char) : Option (List Char) := do
  let (second, cs) ← digits? 2 (← expect? ':' (← clock? cs))
  if second ≤ 60 then
    match cs with
    | '.' :: cs =>
      if (cs.head?.any Char.isDigit) then some (cs.dropWhile Char.isDigit) else none
    | cs => some cs
  else none

/-- Whether a text is an offset from universal time, or nothing. -/
def isOffset : List Char → Bool
  | [] => true
  | ['Z'] | ['z'] => true
  | '+' :: cs | '-' :: cs => clock? cs == some []
  | _ => false

/-- Whether a text is a date. -/
def isDate (cs : List Char) : Bool := date? cs == some []

/-- Whether a text is a time of day with an optional offset. -/
def isZonedTime (cs : List Char) : Bool := (time? cs).any isOffset

/-- Whether a text is a moment, date and time being separated by `T`. -/
def isMoment (cs : List Char) : Bool :=
  time? cs == some [] ||
    match date? cs with
    | some [] => true
    | some (t :: rest) => (t = 'T' || t = 't') && isZonedTime rest
    | none => false

example : isMoment "1979-05-27T07:32:00.5-07:00".toList = true ∧
    isMoment "07:32:60".toList = true ∧ isMoment "1900-02-29".toList = false := by decide +kernel

end NodeHealth.Toml.Moment
