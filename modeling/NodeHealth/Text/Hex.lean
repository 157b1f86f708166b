/-!
# Hexadecimal digits

Digits of either case are read; a writer chooses the case. `value?_fixed` says that a fixed number
of written digits reads back.
-/

namespace NodeHealth.Hex

/-- The value of a hexadecimal digit in either case. -/
def digit? (c : Char) : Option Nat :=
  if '0' ≤ c && c ≤ '9' then some (c.toNat - '0'.toNat)
  else if 'a' ≤ c && c ≤ 'f' then some (c.toNat - 'a'.toNat + 10)
  else if 'A' ≤ c && c ≤ 'F' then some (c.toNat - 'A'.toNat + 10)
  else none

/-- The number that digits denote, behind the digits already read. -/
def valueFrom? : Nat → List Char → Option Nat
  | acc, [] => some acc
  | acc, c :: cs => (digit? c).bind fun d => valueFrom? (16 * acc + d) cs

/-- The number that digits denote. -/
def value? (cs : List Char) : Option Nat := valueFrom? 0 cs

/-- The character with a code point, if that is a scalar value. -/
def scalar? (n : Nat) : Option Char := if n.isValidChar then some (Char.ofNat n) else none

/-- The digit of a value below sixteen in lower case. -/
def lowerDigit (d : Nat) : Char := Nat.digitChar d

/-- The digit of a value below sixteen in upper case. -/
def upperDigit (d : Nat) : Char := (Nat.digitChar d).toUpper

/-- The last `n` digits of a number, written with the given digits. -/
def fixed (digit : Nat → Char) : (n : Nat) → Nat → List Char
  | 0, _ => []
  | n + 1, v => fixed digit n (v / 16) ++ [digit (v % 16)]

theorem scalar?_toNat (c : Char) : scalar? c.toNat = some c := by
  have h : scalar? c.toNat = some (Char.ofNat c.toNat) := if_pos c.valid
  rw [h, Char.ofNat_toNat]

theorem digit?_lowerDigit : ∀ d < 16, digit? (lowerDigit d) = some d := by decide

theorem digit?_upperDigit : ∀ d < 16, digit? (upperDigit d) = some d := by decide

theorem valueFrom?_append (acc : Nat) (a b : List Char) :
    valueFrom? acc (a ++ b) = (valueFrom? acc a).bind fun v => valueFrom? v b := by
  induction a generalizing acc with
  | nil => rfl
  | cons c a ih =>
    simp only [List.cons_append, valueFrom?]
    cases digit? c with
    | none => rfl
    | some d => simp [ih]

theorem value?_fixed {digit : Nat → Char} (hd : ∀ d < 16, digit? (digit d) = some d) (n : Nat) :
    ∀ v < Nat.pow 16 n, value? (fixed digit n v) = some v := by
  induction n with
  | zero =>
    intro v hv
    obtain rfl : v = 0 := Nat.lt_one_iff.1 hv
    rfl
  | succ n ih =>
    intro v hv
    have hq : v / 16 < Nat.pow 16 n := by
      apply Nat.div_lt_of_lt_mul
      rw [Nat.mul_comm]
      exact hv
    have ih := ih (v / 16) hq
    simp only [value?] at ih
    simp only [value?, fixed, valueFrom?_append, ih, Option.bind_some, valueFrom?,
      hd (v % 16) (Nat.mod_lt _ (by decide))]
    congr 1
    omega

end NodeHealth.Hex
