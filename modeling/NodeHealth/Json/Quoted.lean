import NodeHealth.Text.Hex

/-!
# JSON strings

`escape` writes the body of a string, `span?` finds where the body of a string ends, and
`unescape?` reads a body. A body that is well formed but holds half of a surrogate pair is the
body of no text.
-/

namespace NodeHealth.Json

/-- The escaped form of one character: the short escapes where there are any, `\u00xx` in lower
case for the other control characters. -/
def escapeChar (c : Char) : List Char :=
  if c = '"' then ['\\', '"']
  else if c = '\\' then ['\\', '\\']
  else if c = '\x08' then ['\\', 'b']
  else if c = '\t' then ['\\', 't']
  else if c = '\n' then ['\\', 'n']
  else if c = '\x0c' then ['\\', 'f']
  else if c = '\r' then ['\\', 'r']
  else if c.toNat < 0x20 then '\\' :: 'u' :: Hex.fixed Hex.lowerDigit 4 c.toNat
  else [c]

/-- The body of the string that stands for a text. -/
def escape (cs : List Char) : List Char := cs.flatMap escapeChar

/-- The character that a one-letter escape stands for. -/
def shortEscape? : Char → Option Char
  | '"' => some '"'
  | '\\' => some '\\'
  | '/' => some '/'
  | 'b' => some '\x08'
  | 'f' => some '\x0c'
  | 'n' => some '\n'
  | 'r' => some '\r'
  | 't' => some '\t'
  | _ => none

/-- The body of a string and what follows its closing quote. -/
def span? : List Char → Option (List Char × List Char)
  | '"' :: rest => some ([], rest)
  | '\\' :: 'u' :: a :: b :: c :: d :: rest =>
    if (Hex.value? [a, b, c, d]).isSome then
      (span? rest).map fun (body, tail) => ('\\' :: 'u' :: a :: b :: c :: d :: body, tail)
    else none
  | '\\' :: c :: rest =>
    if (shortEscape? c).isSome then (span? rest).map fun (body, tail) => ('\\' :: c :: body, tail)
    else none
  | c :: rest =>
    if c = '\\' || c.toNat < 0x20 then none
    else (span? rest).map fun (body, tail) => (c :: body, tail)
  | [] => none

/-- The character that two halves of a surrogate pair stand for. -/
def joinSurrogates (high low : Nat) : Char :=
  Char.ofNat (0x10000 + (high - 0xD800) * 0x400 + (low - 0xDC00))

/-- The text of a body, if every escape in it stands for a character. -/
def unescape? : List Char → Option (List Char)
  | '\\' :: 'u' :: a :: b :: c :: d :: rest =>
    match Hex.value? [a, b, c, d] with
    | none => none
    | some unit =>
      if 0xD800 ≤ unit && unit < 0xDC00 then
        match rest with
        | '\\' :: 'u' :: e :: f :: g :: h :: rest =>
          match Hex.value? [e, f, g, h] with
          | none => none
          | some low =>
            if 0xDC00 ≤ low && low < 0xE000 then
              (unescape? rest).map (joinSurrogates unit low :: ·)
            else none
        | _ => none
      else (Hex.scalar? unit).bind fun x => (unescape? rest).map (x :: ·)
  | '\\' :: c :: rest => (shortEscape? c).bind fun x => (unescape? rest).map (x :: ·)
  | c :: rest => if c = '\\' then none else (unescape? rest).map (c :: ·)
  | [] => some []

example : unescape? (escape "a\"\\\x01é\n".toList) = some "a\"\\\x01é\n".toList := by
  decide +kernel

example : unescape? "\\ud83e\\udd80".toList = some ['🦀'] ∧ unescape? "\\ud83e".toList = none := by
  decide +kernel

end NodeHealth.Json
