/-!
# What a terminal prints

Text that is quoted in a message is shown as a terminal would print it: control characters other
than white space are dropped, and so are escape sequences. A terminal reads the bytes of a text,
but within a character of several bytes only one byte means anything to it: 0x9C, which ends a
string. So a text can be read character by character.
-/

namespace NodeHealth.Terminal

/-- Where a text stands with regard to escape sequences. -/
inductive State where
  | ground
  /-- Right after an escape character. -/
  | escape
  /-- In an escape sequence that goes on to its final character. -/
  | intermediate
  /-- In a control sequence that goes on to its final character. -/
  | control
  /-- In a command string, which a bell ends. -/
  | command
  /-- At the start of the header of a device control string. -/
  | deviceEntry
  /-- Among the parameters in that header. -/
  | deviceParameter
  /-- Behind the parameters in that header. -/
  | deviceIntermediate
  /-- In a string, which the byte 0x9C ends. -/
  | string
  deriving DecidableEq, Repr

def isSpace (c : Char) : Bool := c = ' ' || c = '\t' || c = '\n' || c = '\x0c' || c = '\r'

/-- Whether a character is one of the control characters of ASCII. -/
def isControl (c : Char) : Bool := c.toNat < 0x20 || c.toNat = 0x7F

/-- Whether a character outside of all sequences is printed. -/
def isPrinted (c : Char) : Bool := !isControl c || isSpace c

/-- Whether a character cuts a sequence off. -/
def isCancel (c : Char) : Bool := c = '\x18' || c = '\x1a'

/-- Whether the byte that ends a string is among the bytes of a character. -/
def holdsStringEnd (c : Char) : Bool := (String.utf8EncodeChar c).contains 0x9C

namespace State

/-- Whether control characters still do their work amid what a text stands in. -/
def obeysControls : State → Bool
  | escape | intermediate | control => true
  | _ => false

/-- The state after the character that follows an escape character. -/
def afterEscape (c : Char) : State :=
  if c = '[' then control
  else if c = ']' then command
  else if c = 'P' then deviceEntry
  else if c = 'X' || c = '^' || c = '_' then string
  else if c.toNat < 0x30 then intermediate
  else ground

/-- The state after a character of ASCII that is no control character. -/
def afterVisible (s : State) (c : Char) : State :=
  match s with
  | escape => afterEscape c
  | intermediate => if c.toNat < 0x30 then intermediate else ground
  | control => if c.toNat < 0x40 then control else ground
  | deviceEntry =>
    if c.toNat < 0x30 then deviceIntermediate
    else if c.toNat < 0x40 then deviceParameter
    else string
  | deviceParameter =>
    if c.toNat < 0x30 then deviceIntermediate
    else if c.toNat < 0x3C then deviceParameter
    else string
  | deviceIntermediate => if c.toNat < 0x30 then deviceIntermediate else string
  | ground | command | string => s

/-- The state after a character that neither begins a sequence nor cuts one off. Characters beyond
ASCII belong to no sequence, so that it goes on as if they were not there. -/
def after (s : State) (c : Char) : State :=
  if 0x7F < c.toNat then if s = string && holdsStringEnd c then ground else s
  else if isControl c then if s = command && c = '\x07' then ground else s
  else s.afterVisible c

end State

/-- The state after a character, and whether the character is printed. -/
def step (s : State) (c : Char) : State × Bool :=
  if c = '\x1b' then (.escape, false)
  else if isCancel c then (.ground, false)
  else if s = .ground then (.ground, isPrinted c)
  else if s.obeysControls && isControl c && isSpace c then (.ground, true)
  else (s.after c, false)

/-- The printed characters of a text. -/
def printed : State → List Char → List Char
  | _, [] => []
  | s, c :: cs =>
    let (next, shown) := step s c
    if shown then c :: printed next cs else printed next cs

/-- What a terminal prints of a text. -/
def shown (s : String) : String := String.ofList (printed .ground s.toList)

example : shown "a\x1b[31mb\x01\tc" = "ab\tc" := by decide +kernel

example : shown "js\x1b[1;3Üon" = "jsn" ∧ shown "1\x1béx2" = "12" := by decide +kernel

/-- The last byte of `Ü` is 0x9C, and it ends a string but not the header of one. -/
example : shown "\x1b_aÜb" = "b" ∧ shown "\x1bPÜqaÜb" = "b" ∧ shown "\x1b]aÜb\x07c" = "c" := by
  decide +kernel

end NodeHealth.Terminal
