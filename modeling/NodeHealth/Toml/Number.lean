import NodeHealth.Text.Hex
import NodeHealth.Text.Numeral

/-!
# TOML numbers

Integers are decimal with an optional sign, or hexadecimal, octal or binary without one; they fit
64 bits. A decimal part has no leading zeros, and an underscore may stand between two digits.
Floating-point numbers are recognised but not valued, except that one too large to be finite is no
number.
-/

namespace NodeHealth.Toml.Number

/-- Digits without the single underscores between them. -/
def ungroup? (isDigit : Char → Bool) : List Char → Option (List Char)
  | [] => none
  | [c] => if isDigit c then some [c] else none
  | c :: '_' :: d :: rest =>
    if isDigit c then (ungroup? isDigit (d :: rest)).map (c :: ·) else none
  | c :: d :: rest => if isDigit c then (ungroup? isDigit (d :: rest)).map (c :: ·) else none

/-- A text without its sign, and whether that was a minus. -/
def splitSign : List Char → Bool × List Char
  | '-' :: cs => (true, cs)
  | '+' :: cs => (false, cs)
  | cs => (false, cs)

/-- The digits of a decimal number without leading zeros. -/
def decimal? (cs : List Char) : Option (List Char) :=
  (ungroup? Char.isDigit cs).filter fun ds => ds.length == 1 || ds.head? != some '0'

/-- The value of digits in a base. -/
def valueIn (base : Nat) (ds : List Char) : Nat :=
  ds.foldl (fun acc c => base * acc + (Hex.digit? c).getD 0) 0

/-- A number written with a base in front of it. -/
def based? (base : Nat) (cs : List Char) : Option Nat :=
  (ungroup? (fun c => (Hex.digit? c).any (· < base)) cs).map (valueIn base)

/-- An integer of 64 bits. -/
def integer? (cs : List Char) : Option Int :=
  let value : Option Int := match cs with
    | '0' :: 'x' :: ds => (based? 16 ds).map Int.ofNat
    | '0' :: 'o' :: ds => (based? 8 ds).map Int.ofNat
    | '0' :: 'b' :: ds => (based? 2 ds).map Int.ofNat
    | cs =>
      let (negative, ds) := splitSign cs
      (decimal? ds).map fun ds =>
        let n := Nat.ofDigitChars 10 ds 0
        if negative then -(n : Int) else n
  value.filter fun n => -(Numeral.signedLimit : Int) ≤ n && n < Numeral.signedLimit

/-- The parts of a floating-point number: the digits before and after the point, and the
exponent. -/
structure Parts where
  negative : Bool
  whole : List Char
  fraction : List Char
  exponent : Int
  deriving DecidableEq, Repr

/-- An exponent: an optional sign and digits, zeros in front allowed. -/
def exponent? (cs : List Char) : Option Int :=
  let (negative, ds) := splitSign cs
  (ungroup? Char.isDigit ds).map fun ds =>
    let n := Nat.ofDigitChars 10 ds 0
    if negative then -(n : Int) else n

/-- The parts of a floating-point number with a fraction, an exponent or both. -/
def parts? (cs : List Char) : Option Parts := do
  let (negative, cs) := splitSign cs
  let (whole, rest) := cs.span fun c => c.isDigit || c = '_'
  let whole ← decimal? whole
  match rest with
  | '.' :: rest =>
    let (fraction, rest) := rest.span fun c => c.isDigit || c = '_'
    let fraction ← ungroup? Char.isDigit fraction
    match rest with
    | [] => some ⟨negative, whole, fraction, 0⟩
    | e :: rest =>
      if e = 'e' || e = 'E' then some ⟨negative, whole, fraction, ← exponent? rest⟩ else none
  | e :: rest => if e = 'e' || e = 'E' then some ⟨negative, whole, [], ← exponent? rest⟩ else none
  | [] => none

/-- Whether a number is rounded to infinity: it is at least halfway from the largest finite value
to 2 ^ 1024. Numbers of more than 310 or fewer than 300 places need no exact comparison. -/
def Parts.overflows (p : Parts) : Bool :=
  let digits := (p.whole ++ p.fraction).dropWhile (· == '0')
  let places : Int := digits.length - p.fraction.length + p.exponent
  if digits.isEmpty || places < 300 then false
  else if 310 < places then true
  else
    let n := Nat.ofDigitChars 10 digits 0
    let shift : Int := p.exponent - p.fraction.length
    let limit := Nat.pow 2 1024 - Nat.pow 2 970
    if 0 ≤ shift then limit ≤ n * Nat.pow 10 shift.toNat else limit * Nat.pow 10 (-shift).toNat ≤ n

/-- Whether a text is a floating-point number, finite or named. -/
def isFloat (cs : List Char) : Bool :=
  let name := (splitSign cs).2
  name == "inf".toList || name == "nan".toList ||
    match parts? cs with
    | some p => p.negative || !p.overflows
    | none => false

example : integer? "1_000".toList = some 1000 ∧ integer? "0xfF".toList = some 255 ∧
    integer? "-0".toList = some 0 ∧ integer? "01".toList = none ∧ integer? "1__0".toList = none ∧
    integer? "9223372036854775808".toList = none := by decide +kernel

example : isFloat "1e400".toList = false ∧ isFloat "-1e400".toList = true ∧
    isFloat "6.626e-34".toList = true ∧ isFloat "1.".toList = false := by decide +kernel

end NodeHealth.Toml.Number
