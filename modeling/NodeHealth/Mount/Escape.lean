import NodeHealth.Text.Utf8

/-!
# Octal escapes

A mount table writes a byte that would disturb its columns as a backslash and three octal digits.
`unescape` reads such escapes where they stand for a byte and leaves every other backslash alone;
it works on bytes, so that escapes and plain bytes together may make up one character.
-/

namespace NodeHealth.Mount

/-- The value of an octal digit. -/
def octalDigit? (b : UInt8) : Option Nat :=
  if 0x30 ≤ b && b ≤ 0x37 then some (b.toNat - 0x30) else none

/-- The byte that three octal digits denote, if they denote one. -/
def octalByte? (a b c : UInt8) : Option UInt8 := do
  let value := (← octalDigit? a) * 64 + (← octalDigit? b) * 8 + (← octalDigit? c)
  if value ≤ 0xFF then some (UInt8.ofNat value) else none

/-- The bytes of a field with its escapes read. -/
def unescapeBytes : Bytes → Bytes
  | 0x5C :: a :: b :: c :: rest =>
    match octalByte? a b c with
    | some byte => byte :: unescapeBytes rest
    | none => 0x5C :: unescapeBytes (a :: b :: c :: rest)
  | b :: rest => b :: unescapeBytes rest
  | [] => []

/-- A field with its escapes read. -/
def unescape (field : String) : String := Utf8.lossy (unescapeBytes (Utf8.encode field))

example : unescape "a\\040b\\134\\400\\04" = "a b\\\\400\\04" := by decide +kernel

end NodeHealth.Mount
