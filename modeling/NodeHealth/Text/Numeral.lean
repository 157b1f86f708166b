/-!
# Decimal numerals

Unsigned numbers are written with ASCII digits, any number of leading zeros and at most one `+`
before them; nothing else is a numeral. `ofDigits?_toDigits` says that what is written reads
back.
-/

namespace NodeHealth.Numeral

/-- The number that one or more digits denote. -/
def ofDigits? (cs : List Char) : Option Nat :=
  if !cs.isEmpty && cs.all Char.isDigit then some (Nat.ofDigitChars 10 cs 0) else none

/-- The number that digits denote, after an optional `+`. -/
def unsigned? : List Char → Option Nat
  | '+' :: cs => ofDigits? cs
  | cs => ofDigits? cs

/-- The number a text denotes, if it is less than `bound`. -/
def below? (bound : Nat) (s : String) : Option Nat :=
  (unsigned? s.toList).filter (· < bound)

/-- The 32-bit count a text denotes. -/
def word32? (s : String) : Option UInt32 :=
  (below? UInt32.size s).map UInt32.ofNat

/-- The number a text denotes, if it fits 64 bits. -/
def word64? (s : String) : Option Nat :=
  below? UInt64.size s

/-- The decimal digits of a number, without leading zeros. -/
def digits (n : Nat) : String := String.ofList (Nat.toDigits 10 n)

/-- Why a text denotes no 64-bit integer. -/
inductive Fault where
  | empty
  | invalidDigit
  | tooLarge
  | tooSmall
  deriving DecidableEq, Repr

/-- One more than the greatest signed 64-bit integer. -/
def signedLimit : Nat := 0x8000000000000000

/-- The digits are read from the left, so the first character that is no digit or takes the
magnitude over the limit decides. -/
def magnitude (limit : Nat) (excess : Fault) : Nat → List Char → Except Fault Nat
  | acc, [] => .ok acc
  | acc, c :: cs =>
    if c.isDigit then
      let value := 10 * acc + (c.toNat - '0'.toNat)
      if limit < value then .error excess else magnitude limit excess value cs
    else .error .invalidDigit

/-- The signed 64-bit integer a text denotes: an optional sign and one or more digits. -/
def int64 (s : String) : Except Fault Int :=
  match s.toList with
  | [] => .error .empty
  | ['+'] | ['-'] => .error .invalidDigit
  | '-' :: cs => (magnitude signedLimit .tooSmall 0 cs).map fun n => -(n : Int)
  | '+' :: cs => (magnitude (signedLimit - 1) .tooLarge 0 cs).map Int.ofNat
  | cs => (magnitude (signedLimit - 1) .tooLarge 0 cs).map Int.ofNat

/-- The 32-bit count equal to an integer. -/
def word32OfInt? : Int → Option UInt32
  | .ofNat n => if n < UInt32.size then some (UInt32.ofNat n) else none
  | .negSucc _ => none

theorem isDigit_of_mem_toDigits {n : Nat} {c : Char} (h : c ∈ Nat.toDigits 10 n) :
    c.isDigit = true :=
  Nat.isDigit_of_mem_toDigits (by decide) (by decide) h

theorem ofDigits?_toDigits (n : Nat) : ofDigits? (Nat.toDigits 10 n) = some n := by
  have hne : (Nat.toDigits 10 n).isEmpty = false := by
    cases h : Nat.toDigits 10 n with
    | nil => exact absurd h (by simp)
    | cons => rfl
  have hall : (Nat.toDigits 10 n).all Char.isDigit = true :=
    List.all_eq_true.2 fun c hc => isDigit_of_mem_toDigits hc
  simp [ofDigits?, hne, hall, Nat.ofDigitChars_ten_toDigits]

example : word32? "+0042" = some 42 ∧ word32? "4294967296" = none ∧ word32? "" = none := by
  decide +kernel

example : int64 "99999999999999999999x" = .error .tooLarge := by rfl

end NodeHealth.Numeral
