import NodeHealth.Text.Hex

/-!
# TOML strings

A text is written in one of four forms (`Form`): between quotation marks with escapes or between
apostrophes without any, on one line or, between three marks, on several. `Form.ofText` chooses the
plainest form that needs no escapes, and `write` writes it; `read` reads all forms.
-/

namespace NodeHealth.Toml.Quoted

/-! ## Reading -/

/-- The characters that stand for themselves on a line of text. -/
def isPlain (c : Char) : Bool :=
  c = '\t' || (0x20 ≤ c.toNat && c.toNat ≠ 0x7F)

/-- The blanks within a line. -/
def isSpace (c : Char) : Bool := c = ' ' || c = '\t'

/-- The text after a line break, if it begins with one. -/
def break? : List Char → Option (List Char)
  | '\n' :: rest => some rest
  | '\r' :: '\n' :: rest => some rest
  | _ => none

/-- A text without the line break that it may begin with. -/
def dropBreak (cs : List Char) : List Char := (break? cs).getD cs

/-- A text without the blanks and line breaks that it begins with. -/
def skipBreaks : List Char → List Char
  | '\n' :: rest => skipBreaks rest
  | '\r' :: '\n' :: rest => skipBreaks rest
  | c :: rest => if isSpace c then skipBreaks rest else c :: rest
  | [] => []

/-- Whether only blanks remain of a line. -/
def endsLine (cs : List Char) : Bool := (break? (cs.dropWhile isSpace)).isSome

/-- Reads what follows a backslash. -/
def escape? : List Char → Option (Char × List Char)
  | 'b' :: rest => some ('\x08', rest)
  | 't' :: rest => some ('\t', rest)
  | 'n' :: rest => some ('\n', rest)
  | 'f' :: rest => some ('\x0c', rest)
  | 'r' :: rest => some ('\r', rest)
  | '"' :: rest => some ('"', rest)
  | '\\' :: rest => some ('\\', rest)
  | 'u' :: a :: b :: c :: d :: rest =>
    ((Hex.value? [a, b, c, d]).bind Hex.scalar?).map (·, rest)
  | 'U' :: a :: b :: c :: d :: e :: f :: g :: h :: rest =>
    ((Hex.value? [a, b, c, d, e, f, g, h]).bind Hex.scalar?).map (·, rest)
  | _ => none

theorem escape?_length {cs rest : List Char} {c : Char} (h : escape? cs = some (c, rest)) :
    rest.length < cs.length := by
  unfold escape? at h
  split at h
  all_goals
    simp only [Option.some.injEq, Option.map_eq_some_iff, Prod.mk.injEq, reduceCtorEq] at h
  all_goals
    first
    | obtain ⟨rfl, rfl⟩ := h
    | obtain ⟨_, _, rfl, rfl⟩ := h
    simp only [List.length_cons]
    omega

theorem skipBreaks_length_le (cs : List Char) : (skipBreaks cs).length ≤ cs.length := by
  fun_induction skipBreaks cs with
  | case1 rest ih => simp only [List.length_cons]; omega
  | case2 rest ih => simp only [List.length_cons]; omega
  | case3 c rest _ _ _ ih => simp only [List.length_cons]; omega
  | case4 => exact Nat.le_refl _
  | case5 => exact Nat.le_refl _

/-- Puts a character before the text that a reader found. -/
def consText (c : Char) (found : List Char × List Char) : List Char × List Char :=
  (c :: found.1, found.2)

/-- Reads text with escapes up to a quotation mark. -/
def basic (cs : List Char) : Option (List Char × List Char) :=
  match cs with
  | [] => none
  | '"' :: rest => some ([], rest)
  | '\\' :: rest =>
    match _h : escape? rest with
    | none => none
    | some (c, rest') => (basic rest').map (consText c)
  | c :: rest => if isPlain c then (basic rest).map (consText c) else none
termination_by cs.length
decreasing_by
  · have := escape?_length ‹_›
    simp only [List.length_cons]
    omega
  · simp

/-- Reads text with escapes up to three quotation marks; up to two more before them belong to the
text, and so does a line break unless a backslash stands before it. -/
def basicLines (cs : List Char) : Option (List Char × List Char) :=
  match cs with
  | [] => none
  | '"' :: '"' :: '"' :: '"' :: '"' :: rest => some (['"', '"'], rest)
  | '"' :: '"' :: '"' :: '"' :: rest => some (['"'], rest)
  | '"' :: '"' :: '"' :: rest => some ([], rest)
  | '\n' :: rest => (basicLines rest).map (consText '\n')
  | '\r' :: '\n' :: rest => (basicLines rest).map (consText '\n')
  | '\\' :: rest =>
    if endsLine rest then basicLines (skipBreaks rest)
    else match _h : escape? rest with
      | none => none
      | some (c, rest') => (basicLines rest').map (consText c)
  | c :: rest => if isPlain c then (basicLines rest).map (consText c) else none
termination_by cs.length
decreasing_by
  · simp
  · simp only [List.length_cons]; omega
  · exact Nat.lt_succ_of_le (skipBreaks_length_le rest)
  · have := escape?_length ‹_›
    simp only [List.length_cons]
    omega
  · simp

/-- Reads text up to an apostrophe. -/
def literal : List Char → Option (List Char × List Char)
  | [] => none
  | '\'' :: rest => some ([], rest)
  | c :: rest => if isPlain c then (literal rest).map (consText c) else none

/-- Reads text up to three apostrophes; up to two more before them belong to the text. -/
def literalLines : List Char → Option (List Char × List Char)
  | [] => none
  | '\'' :: '\'' :: '\'' :: '\'' :: '\'' :: rest => some (['\'', '\''], rest)
  | '\'' :: '\'' :: '\'' :: '\'' :: rest => some (['\''], rest)
  | '\'' :: '\'' :: '\'' :: rest => some ([], rest)
  | '\n' :: rest => (literalLines rest).map (consText '\n')
  | '\r' :: '\n' :: rest => (literalLines rest).map (consText '\n')
  | c :: rest => if isPlain c then (literalLines rest).map (consText c) else none

/-- Reads a string on one line, as keys have to be. -/
def readLine : List Char → Option (List Char × List Char)
  | '"' :: rest => basic rest
  | '\'' :: rest => literal rest
  | _ => none

/-- Reads a string in any form. A line break right after three marks is no part of the text. -/
def read : List Char → Option (List Char × List Char)
  | '"' :: '"' :: '"' :: rest => basicLines (dropBreak rest)
  | '\'' :: '\'' :: '\'' :: rest => literalLines (dropBreak rest)
  | cs => readLine cs

/-! ## Writing -/

/-- The forms of a string. -/
inductive Form where
  | basic
  | literal
  | basicLines
  | literalLines
  deriving DecidableEq, Repr

/-- Whether a character can be written in a string only by an escape. -/
def isControl (c : Char) : Bool := !isPlain c && c != '\n'

/-- The longest run of a character, given the length of the run in front of the text. -/
def longestRunFrom (q : Char) : Nat → List Char → Nat
  | run, [] => run
  | run, c :: cs =>
    if c = q then longestRunFrom q (run + 1) cs else max run (longestRunFrom q 0 cs)

/-- The longest run of a character. -/
def longestRun (q : Char) (cs : List Char) : Nat := longestRunFrom q 0 cs

/-- The first form that needs no escapes, of `basic`, `literal`, `basicLines` and `literalLines`;
where all need them, a form with escapes, on several lines if the text has several. -/
def Form.ofText (cs : List Char) : Form :=
  if cs.any isControl then if cs.contains '\n' then .basicLines else .basic
  else if !cs.contains '\\' && !cs.contains '"' && !cs.contains '\n' then .basic
  else if !cs.contains '\'' && !cs.contains '\n' then .literal
  else if !cs.contains '\\' && longestRun '"' cs ≤ 2 then .basicLines
  else if longestRun '\'' cs ≤ 2 then .literalLines
  else if cs.contains '\n' then .basicLines
  else .basic

/-- A character other than a quotation mark within a string that has escapes. -/
def escapeChar (several : Bool) (c : Char) : List Char :=
  if c = '\x08' then ['\\', 'b']
  else if c = '\t' then ['\\', 't']
  else if c = '\n' then if several then ['\n'] else ['\\', 'n']
  else if c = '\x0c' then ['\\', 'f']
  else if c = '\r' then ['\\', 'r']
  else if c = '\\' then ['\\', '\\']
  else if isPlain c then [c]
  else '\\' :: 'u' :: Hex.fixed Hex.upperDigit 4 c.toNat

/-- The body of a string that has escapes, given how many quotation marks stand before it. Two
quotation marks in a row need no escape on several lines, the third does. -/
def escapeFrom (several : Bool) : (run : Nat) → List Char → List Char
  | _, [] => []
  | run, c :: cs =>
    if c = '"' then
      if several && run < 2 then '"' :: escapeFrom several (run + 1) cs
      else '\\' :: '"' :: escapeFrom several 0 cs
    else escapeChar several c ++ escapeFrom several 0 cs

/-- The line break after the opening marks of a text that has several lines. -/
def lead (cs : List Char) : List Char := if cs.contains '\n' then ['\n'] else []

/-- A text in a form. -/
def Form.write (cs : List Char) : Form → List Char
  | .basic => "\"".toList ++ escapeFrom false 0 cs ++ "\"".toList
  | .literal => "'".toList ++ cs ++ "'".toList
  | .basicLines => "\"\"\"".toList ++ lead cs ++ escapeFrom true 0 cs ++ "\"\"\"".toList
  | .literalLines => "'''".toList ++ lead cs ++ cs ++ "'''".toList

/-- A text as a string. -/
def write (cs : List Char) : List Char := (Form.ofText cs).write cs

end NodeHealth.Toml.Quoted
