import NodeHealth.Text.Address

/-!
# Column layouts

The columns of a pod line are name, ready, phase, restarts, age, ip and node, and two more that no
one reads. A parenthesized annotation of the restart count shifts the columns behind it by as many
tokens as it has, and one more if it took the place of the age. `Layout.detect?` finds out which
of the two happened, or that nothing did.
-/

namespace NodeHealth

/-- Where the ip stands relative to the token that closes an annotation. -/
inductive Anchor where
  /-- The age follows the annotation, and the ip follows the age. -/
  | afterAge
  /-- The annotation took the place of the age, and the ip follows it. -/
  | displacedAge
  deriving DecidableEq, Repr

/-- The column layout of one line. -/
inductive Layout where
  | canonical
  /-- An annotation whose last token has the index `close`. -/
  | annotated (close : Nat) (anchor : Anchor)
  deriving DecidableEq, Repr

namespace Layout

/-- What the listing prints for an ip or node that is not assigned. -/
def noneMarker : String := "<none>"

/-- The index of the token that may open an annotation. -/
def remarkIndex : Nat := 4

/-- The indices of the tokens that may close an annotation. -/
def closeIndices : List Nat := [4, 5, 6]

def opensRemark (token : String) : Bool := token.toList.head? == some '('

def closesRemark (token : String) : Bool := token.toList.getLast? == some ')'

/-- Whether a token can stand in the ip column. -/
def isIpColumn (token : String) : Bool := token == noneMarker || Address.isAddress token

/-- The layout of a list of tokens; `none` if an annotation is closed by the last of them. An
annotation that is not closed within its three tokens is none. -/
def detect? (tokens : List String) : Option Layout :=
  if tokens[remarkIndex]?.any opensRemark then
    match closeIndices.find? fun i => tokens[i]?.any closesRemark with
    | none => some canonical
    | some close =>
      tokens[close + 1]?.map fun next =>
        annotated close (if isIpColumn next then .displacedAge else .afterAge)
  else some canonical

/-- The index of the ip column. -/
def ipIndex : Layout → Nat
  | canonical => 5
  | annotated close .afterAge => close + 2
  | annotated close .displacedAge => close + 1

/-- The index of the node column. -/
def nodeIndex (l : Layout) : Nat := l.ipIndex + 1

/-- The tokens of a line's annotation, which only an annotated layout has. -/
def remark? (tokens : List String) : Layout → Option (List String)
  | canonical => none
  | annotated close _ => some ((tokens.take (close + 1)).drop remarkIndex)

end Layout

end NodeHealth
