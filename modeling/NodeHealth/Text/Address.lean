import NodeHealth.Text.Split

/-!
# Network addresses

An IPv4 address is four decimal parts from 0 to 255 without leading zeros. An IPv6 address is
eight groups of one to four hexadecimal digits; the last two groups may be written as an IPv4
address, and one run of one or more zero groups as `::`. Neither takes a zone, a port or
brackets.
-/

namespace NodeHealth.Address

/-- A part of an IPv4 address: 0 to 255 in decimal without leading zeros. -/
def isOctet (cs : List Char) : Bool :=
  !cs.isEmpty && cs.length ≤ 3 && cs.all Char.isDigit &&
    (cs.length == 1 || cs.head? != some '0') && Nat.ofDigitChars 10 cs 0 ≤ 255

/-- An IPv4 address: four parts with dots between them. -/
def isDotted (cs : List Char) : Bool :=
  let parts := Chars.splitWhen (· == '.') cs
  parts.length == 4 && parts.all isOctet

/-- A hexadecimal digit in either case. -/
def isHex (c : Char) : Bool :=
  c.isDigit || ('a' ≤ c && c ≤ 'f') || ('A' ≤ c && c ≤ 'F')

/-- A group of an IPv6 address. -/
def isGroup (cs : List Char) : Bool :=
  !cs.isEmpty && cs.length ≤ 4 && cs.all isHex

/-- The number of groups that pieces between colons stand for; a dotted last piece stands for
two where `dotted` allows it. -/
def width? (dotted : Bool) : List (List Char) → Option Nat
  | [] => some 0
  | [piece] => if isGroup piece then some 1 else if dotted && isDotted piece then some 2 else none
  | piece :: pieces => if isGroup piece then (width? dotted pieces).map (· + 1) else none

/-- The number of groups on one side of a `::`, where nothing at all is no group. -/
def side? (dotted : Bool) (cs : List Char) : Option Nat :=
  if cs.isEmpty then some 0 else width? dotted (Chars.splitWhen (· == ':') cs)

/-- What stands before the first `::` and what stands after it. -/
def cutGap? : List Char → Option (List Char × List Char)
  | ':' :: ':' :: cs => some ([], cs)
  | c :: cs => (cutGap? cs).map fun (a, b) => (c :: a, b)
  | [] => none

/-- An IPv6 address: eight groups, or fewer around one `::`. -/
def isColoned (cs : List Char) : Bool :=
  match cutGap? cs with
  | none => width? true (Chars.splitWhen (· == ':') cs) == some 8
  | some (front, back) =>
    match side? false front, side? true back with
    | some m, some n => m + n ≤ 7
    | _, _ => false

/-- Whether a text is an IPv4 or IPv6 address. -/
def isAddress (s : String) : Bool := isDotted s.toList || isColoned s.toList

example : isAddress "10.0.0.255" = true ∧ isAddress "10.0.0.256" = false ∧
    isAddress "1.02.3.4" = false := by decide +kernel

example : isAddress "::" = true ∧ isAddress "1:2:3:4:5:6:7::" = true ∧
    isAddress "::ffff:1.2.3.4" = true ∧ isAddress "1:2:3:4:5:6:7:1.2.3.4" = false ∧
    isAddress "1::2::3" = false := by decide +kernel

end NodeHealth.Address
