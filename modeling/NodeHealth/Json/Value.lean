import NodeHealth.Json.Quoted

/-!
# JSON values

A value keeps its strings and numbers as they are written: what a string says is found out by
`Json.text?`, and a string that stands for no text is still a value. `Json.ofText?` reads a text
that holds one value and blanks, `Json.compact` writes a value without blanks.
-/

namespace NodeHealth

/-- A JSON value as written. -/
inductive Json where
  | null
  | bool (b : Bool)
  | number (text : List Char)
  /-- A string by its body, escapes unread. -/
  | string (body : List Char)
  | array (items : List Json)
  /-- An object by its members in order, keys as bodies of strings. -/
  | object (members : List (List Char × Json))

namespace Json

/-- The string that stands for a text. -/
def ofString (s : String) : Json := .string (escape s.toList)

/-- The text that a value is, if it is a string and stands for one. -/
def text? : Json → Option String
  | .string body => (unescape? body).map String.ofList
  | _ => none

/-! ## Writing -/

/-- A string with its quotes. -/
def quoted (body : List Char) : List Char := '"' :: body ++ ['"']

mutual

/-- The compact form of a value. -/
def write : Json → List Char
  | .null => "null".toList
  | .bool b => (if b then "true" else "false").toList
  | .number text => text
  | .string body => quoted body
  | .array items => '[' :: writeItems items ++ [']']
  | .object members => '{' :: writeMembers members ++ ['}']

/-- Values with commas between them. -/
def writeItems : List Json → List Char
  | [] => []
  | [item] => write item
  | item :: items => write item ++ ',' :: writeItems items

/-- Members with commas between them. -/
def writeMembers : List (List Char × Json) → List Char
  | [] => []
  | [(key, value)] => quoted key ++ ':' :: write value
  | (key, value) :: members => quoted key ++ ':' :: write value ++ ',' :: writeMembers members

end

/-- A value without blanks. -/
def compact (j : Json) : String := String.ofList (write j)

/-! ## Reading -/

/-- A reader takes a value from the front of a text and gives what follows it. -/
abbrev Reader (α : Type) := List Char → Option (α × List Char)

/-- The blanks of JSON. -/
def isSpace (c : Char) : Bool := c = ' ' || c = '\t' || c = '\n' || c = '\r'

def skipSpace (cs : List Char) : List Char := cs.dropWhile isSpace

/-- Digits without a leading zero, or a single zero. -/
def isWhole (cs : List Char) : Bool :=
  cs == ['0'] || (!cs.isEmpty && cs.head? != some '0' && cs.all Char.isDigit)

/-- An exponent: an optional sign and digits. -/
def isExponent : List Char → Bool
  | '+' :: cs | '-' :: cs | cs => !cs.isEmpty && cs.all Char.isDigit

/-- What may follow the whole part of a number. -/
def isFraction (cs : List Char) : Bool :=
  match cs with
  | [] => true
  | '.' :: rest =>
    let (digits, rest) := rest.span Char.isDigit
    !digits.isEmpty && match rest with
      | [] => true
      | e :: exponent => (e = 'e' || e = 'E') && isExponent exponent
  | e :: exponent => (e = 'e' || e = 'E') && isExponent exponent

/-- Whether a text is a number. -/
def isNumber (cs : List Char) : Bool :=
  let (whole, rest) := (match cs with | '-' :: cs => cs | cs => cs).span Char.isDigit
  isWhole whole && isFraction rest

/-- The characters that occur in numbers. -/
def isNumberChar (c : Char) : Bool :=
  c.isDigit || c = '+' || c = '-' || c = '.' || c = 'e' || c = 'E'

/-- Reads a value other than an array or object. -/
def scalar : Reader Json
  | '"' :: rest => (span? rest).map fun (body, rest) => (.string body, rest)
  | 'n' :: 'u' :: 'l' :: 'l' :: rest => some (.null, rest)
  | 't' :: 'r' :: 'u' :: 'e' :: rest => some (.bool true, rest)
  | 'f' :: 'a' :: 'l' :: 's' :: 'e' :: rest => some (.bool false, rest)
  | cs =>
    let (run, rest) := cs.span isNumberChar
    if isNumber run then some (.number run, rest) else none

/-- Reads one or more items with commas between them and the bracket that closes them. -/
def items {α : Type} (item : Reader α) (close : Char) (cs : List Char) :
    Option (List α × List Char) :=
  match item cs with
  | none => none
  | some (x, rest) =>
    match skipSpace rest with
    | [] => none
    | c :: rest =>
      if c = close then some ([x], rest)
      else if c = ',' then
        if _h : rest.length < cs.length then
          (items item close rest).map fun (xs, rest) => (x :: xs, rest)
        else none
      else none
termination_by cs.length

/-- Reads items up to the bracket that closes them; there may be none. -/
def bracketed {α : Type} (item : Reader α) (close : Char) (cs : List Char) :
    Option (List α × List Char) :=
  match skipSpace cs with
  | [] => none
  | c :: rest => if c = close then some ([], rest) else items item close (c :: rest)

/-- Reads a member of an object. -/
def member (value : Reader Json) : Reader (List Char × Json) := fun cs =>
  match skipSpace cs with
  | '"' :: rest =>
    (span? rest).bind fun (key, rest) =>
      match skipSpace rest with
      | ':' :: rest => (value rest).map fun (v, rest) => ((key, v), rest)
      | _ => none
  | _ => none

/-- Reads a value, blanks before it included, in which arrays and objects are nested at most
`depth` deep. -/
def value : (depth : Nat) → Reader Json
  | 0, cs => scalar (skipSpace cs)
  | depth + 1, cs =>
    match skipSpace cs with
    | '[' :: rest => (bracketed (value depth) ']' rest).map fun (xs, rest) => (.array xs, rest)
    | '{' :: rest =>
      (bracketed (member (value depth)) '}' rest).map fun (xs, rest) => (.object xs, rest)
    | cs => scalar cs

/-- The value a text holds. No value is nested deeper than its text is long. -/
def ofText? (s : String) : Option Json :=
  match value s.length s.toList with
  | some (j, rest) => if (skipSpace rest).isEmpty then some j else none
  | none => none

end Json

end NodeHealth
