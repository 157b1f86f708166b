import NodeHealth.Proofs.Pod.Reading
import NodeHealth.Proofs.Pod.Overflow

/-!
# The wide table

What a printer of the wide pod listing writes. A pod line is name, ready, phase and restart count,
then one of three shapes, ip and node, and at least two more columns. `Shape` says what stands
between the restart count and the ip: the age, an annotation and the age, or an annotation in the
place of the age. A table is any sequence of pod lines and other, shorter lines, each with blanks
around its tokens and either line ending.

* `ofTokens?_tokens`: the tokens of a pod line read back as its row.
* `WideTable.ofListing_chars`: a table reads line by line.
-/

namespace NodeHealth

/-! ## Pod lines -/

/-- An annotation of the restart count: up to three tokens, of which the first opens a parenthesis
and the last, as the only one, closes it. -/
structure Remark where
  /-- The tokens before the last one. -/
  front : List String
  last : String
  short : front.length ≤ 2
  opens : ∀ t ∈ (front ++ [last]).head?, t.toList.head? = some '('
  inner : ∀ t ∈ front, t.toList.getLast? ≠ some ')'
  closes : last.toList.getLast? = some ')'

def Remark.tokens (r : Remark) : List String := r.front ++ [r.last]

/-- How many locations beyond the used ones an annotation counts. -/
inductive Remark.Counts (r : Remark) : UInt32 → Prop
  | counts (used total : UInt32) : r.tokens = [Row.countText used total] →
      Counts r (if used ≤ total then total - used else 0)
  | words : (∀ t ∈ r.tokens, '/' ∉ t.toList) → Counts r 0

/-- What stands between the restart count and the node. An ip of `none` is not assigned. -/
inductive Shape where
  | canonical (age : String) (ip : Option String) (plain : age.toList.head? ≠ some '(')
  | annotated (remark : Remark) (age : String) (ip : Option String)
      (noIp : age ≠ Layout.noneMarker ∧ Address.isAddress age = false)
  | displaced (remark : Remark) (ip : Option String) (isIp : ∀ a ∈ ip, Address.isAddress a = true)

namespace Shape

/-- The tokens before the ip. -/
def before : Shape → List String
  | canonical age _ _ => [age]
  | annotated remark age _ _ => remark.tokens ++ [age]
  | displaced remark _ _ => remark.tokens

def ip : Shape → Option String
  | canonical _ ip _ => ip
  | annotated _ _ ip _ => ip
  | displaced _ ip _ => ip

def remark? : Shape → Option Remark
  | canonical _ _ _ => none
  | annotated remark _ _ _ => some remark
  | displaced remark _ _ => some remark

/-- The layout of a line of this shape. -/
def layout : Shape → Layout
  | canonical _ _ _ => .canonical
  | annotated remark _ _ _ => .annotated (4 + remark.front.length) .afterAge
  | displaced remark _ _ => .annotated (4 + remark.front.length) .displacedAge

theorem ipIndex_layout (s : Shape) : s.layout.ipIndex = 4 + s.before.length := by
  cases s with
  | canonical => rfl
  | annotated remark => simp [layout, Layout.ipIndex, before, Remark.tokens]; omega
  | displaced remark => simp [layout, Layout.ipIndex, before, Remark.tokens]; omega

end Shape

/-- How an ip or node is printed. -/
def printColumn (value : Option String) : String := value.getD Layout.noneMarker

/-- A pod line; a node of `none` is not assigned. -/
structure PodLine where
  name : String
  ready : String
  phase : String
  restarts : UInt32
  shape : Shape
  node : Option String
  /-- The columns behind the node. -/
  further : List String
  ip_ne : shape.ip ≠ some Layout.noneMarker
  node_ne : node ≠ some Layout.noneMarker
  two_le_further : 2 ≤ further.length

namespace PodLine

def tokens (p : PodLine) : List String :=
  [p.name, p.ready, p.phase, Numeral.digits p.restarts.toNat] ++
    (p.shape.before ++ printColumn p.shape.ip :: printColumn p.node :: p.further)

/-- The index of the node. -/
def nodeIndex (p : PodLine) : Nat := p.shape.layout.nodeIndex

/-- A row says what a pod line says. -/
structure Shows (p : PodLine) (row : Row) : Prop where
  name : row.name = p.name
  phase : row.phase = p.phase
  restarts : row.restarts = p.restarts
  ip : row.ip = p.shape.ip.getD ""
  node : row.node = p.node.getD ""
  overflow : Option.Rel Remark.Counts p.shape.remark? row.overflow

end PodLine

/-! ## Tables -/

inductive LineEnd where
  | feed
  | returnFeed
  deriving DecidableEq, Repr

def LineEnd.chars : LineEnd → List Char
  | feed => ['\n']
  | returnFeed => ['\r', '\n']

/-- What is printed on a line. -/
inductive LineContent where
  | pod (p : PodLine)
  /-- A line that is no pod line: a heading, a notice or nothing at all. -/
  | noise (tokens : List String) (short : tokens.length < Row.minTokens)

namespace LineContent

def tokens : LineContent → List String
  | pod p => p.tokens
  | noise tokens _ => tokens

def pod? : LineContent → Option PodLine
  | pod p => some p
  | noise _ _ => none

end LineContent

/-- A line of a table: tokens with any blanks around them, and a line ending. -/
structure TableLine where
  content : LineContent
  body : List Char
  spaced : Chars.Spaced (content.tokens.map String.toList) body
  noFeed : '\n' ∉ body
  ending : LineEnd

def TableLine.chars (l : TableLine) : List Char := l.body ++ l.ending.chars

/-- A printed listing. -/
abbrev WideTable := List TableLine

namespace WideTable

def chars (t : WideTable) : List Char := t.flatMap TableLine.chars

def text (t : WideTable) : String := String.ofList t.chars

def pods (t : WideTable) : List PodLine := t.filterMap (·.content.pod?)

end WideTable

/-! ## Reading a pod line -/

theorem column_printColumn {value : Option String} (h : value ≠ some Layout.noneMarker) :
    Row.column (printColumn value) = value.getD "" := by
  cases value with
  | none => rfl
  | some text =>
    have htext : text ≠ Layout.noneMarker := fun he => h (congrArg some he)
    simp [printColumn, Row.column, htext]

theorem isIpColumn_printColumn {ip : Option String}
    (h : ∀ a ∈ ip, Address.isAddress a = true) : Layout.isIpColumn (printColumn ip) = true := by
  cases ip with
  | none => rfl
  | some a => simp [Layout.isIpColumn, printColumn, h a rfl]

namespace Remark

variable (r : Remark)

theorem opensRemark_head : r.tokens.head?.any Layout.opensRemark = true := by
  cases h : r.tokens.head? with
  | none => simp [tokens] at h
  | some t => simpa [Layout.opensRemark] using r.opens t h

theorem closesRemark_inner : ∀ t ∈ r.front, Layout.closesRemark t = false := by
  intro t ht
  simpa [Layout.closesRemark] using r.inner t ht

theorem closesRemark_last : Layout.closesRemark r.last = true := by
  simpa [Layout.closesRemark] using r.closes

/-- The layout of a line with this annotation, which the token behind it decides. -/
theorem detect?_append {start rest : List String} {next : String} (hstart : start.length = 4) :
    Layout.detect? (start ++ (r.tokens ++ next :: rest)) =
      some (.annotated (4 + r.front.length)
        (if Layout.isIpColumn next then .displacedAge else .afterAge)) := by
  rw [tokens, List.append_assoc]
  exact Layout.detect?_of_remark hstart r.short r.opensRemark_head r.closesRemark_inner
    r.closesRemark_last

theorem take_drop {start rest : List String} (hstart : start.length = 4) :
    ((start ++ (r.tokens ++ rest)).take (4 + r.front.length + 1)).drop 4 = r.tokens := by
  have hlength : 4 + r.front.length + 1 = (start ++ r.tokens).length := by
    simp [tokens, hstart]
    omega
  rw [hlength, ← List.append_assoc, List.take_left, List.drop_left' hstart]

end Remark

namespace PodLine

variable (p : PodLine)

theorem detect?_tokens : Layout.detect? p.tokens = some p.shape.layout := by
  unfold tokens
  cases hs : p.shape with
  | canonical age ip plain =>
    refine Layout.detect?_of_not_opens ?_
    simpa [Layout.remarkIndex, Shape.before, Layout.opensRemark] using plain
  | annotated remark age ip noIp =>
    have hage : Layout.isIpColumn age = false := by simp [Layout.isIpColumn, noIp.1, noIp.2]
    simp only [Shape.before, Shape.layout, List.append_assoc, List.singleton_append]
    rw [remark.detect?_append (by rfl), hage]
    rfl
  | displaced remark ip isIp =>
    simp only [Shape.before, Shape.layout, Shape.ip]
    rw [remark.detect?_append (by rfl), isIpColumn_printColumn isIp]
    rfl

theorem remark?_tokens : p.shape.layout.remark? p.tokens = p.shape.remark?.map Remark.tokens := by
  unfold tokens
  cases hs : p.shape with
  | canonical => rfl
  | annotated remark age ip noIp =>
    simp only [Shape.before, Shape.layout, List.append_assoc, Layout.remark?, Layout.remarkIndex]
    rw [remark.take_drop (by rfl)]
    rfl
  | displaced remark ip isIp =>
    simp only [Shape.before, Shape.layout, Layout.remark?, Layout.remarkIndex]
    rw [remark.take_drop (by rfl)]
    rfl

theorem getElem?_tokens (i : Nat) :
    p.tokens[4 + p.shape.before.length + i]? =
      (printColumn p.shape.ip :: printColumn p.node :: p.further)[i]? := by
  rw [tokens, List.getElem?_append_right (by simp; omega),
    List.getElem?_append_right (by simp; omega)]
  congr 1
  simp
  omega

theorem getElem?_ipIndex : p.tokens[p.shape.layout.ipIndex]? = some (printColumn p.shape.ip) := by
  rw [Shape.ipIndex_layout]
  exact p.getElem?_tokens 0

theorem getElem?_nodeIndex : p.tokens[p.nodeIndex]? = some (printColumn p.node) := by
  rw [nodeIndex, Layout.nodeIndex, Shape.ipIndex_layout]
  exact p.getElem?_tokens 1

theorem minTokens_le : Row.minTokens ≤ p.tokens.length := by
  have hbefore : 1 ≤ p.shape.before.length := by
    cases p.shape <;> simp [Shape.before, Remark.tokens]
  have := p.two_le_further
  simp [tokens, Row.minTokens]
  omega

/-- The row that reading a pod line gives. -/
def row : Row where
  name := p.name
  phase := p.phase
  restarts := p.restarts
  ip := p.shape.ip.getD ""
  node := p.node.getD ""
  overflow := p.shape.remark?.map fun r => Row.overflowOf r.tokens

theorem ofTokens?_tokens : Row.ofTokens? p.tokens = some p.row := by
  refine Row.ofTokens?_eq_some_iff.2 ⟨p.minTokens_le, _, _, _, _, rfl, rfl, rfl,
    Numeral.word32?_digits p.restarts, p.detect?_tokens, p.getElem?_ipIndex, p.getElem?_nodeIndex,
    (column_printColumn p.ip_ne).symm, (column_printColumn p.node_ne).symm, ?_⟩
  rw [remark?_tokens, Option.map_map]
  rfl

end PodLine

/-! ## Reading a table -/

namespace TableLine

variable (l : TableLine)

/-- What stands before the line feed. -/
def piece : List Char := l.chars.dropLast

theorem chars_eq : l.chars = l.piece ++ ['\n'] := by
  unfold piece chars
  cases l.ending <;> simp [LineEnd.chars]

theorem spaced_piece : Chars.Spaced (l.content.tokens.map String.toList) l.piece := by
  unfold piece chars
  cases l.ending with
  | feed => simpa [LineEnd.chars] using l.spaced
  | returnFeed => simpa [LineEnd.chars] using l.spaced.append_blank (c := '\r') (by decide)

theorem noFeed_piece : '\n' ∉ l.piece := by
  unfold piece chars
  cases l.ending <;> simpa [LineEnd.chars] using l.noFeed

theorem ofChars?_eq : Row.ofChars? l.piece = l.content.pod?.map PodLine.row := by
  rw [Row.ofChars?_of_spaced l.spaced_piece]
  cases l.content with
  | pod p => exact p.ofTokens?_tokens
  | noise tokens short => exact Row.ofTokens?_eq_none short

end TableLine

namespace WideTable

theorem chars_cons (l : TableLine) (t : WideTable) (rest : List Char) :
    chars (l :: t) ++ rest = l.piece ++ '\n' :: (chars t ++ rest) := by
  simp [chars, l.chars_eq]

theorem pods_cons (l : TableLine) (t : WideTable) :
    pods (l :: t) = l.content.pod?.toList ++ pods t := by
  rw [pods, List.filterMap_cons]
  cases l.content.pod? <;> rfl

/-- The pod lines of a table are read one by one, and what stands behind the table on its own. -/
theorem ofListing_chars (t : WideTable) (rest : List Char) :
    Row.ofListing (String.ofList (t.chars ++ rest)) =
      t.pods.map PodLine.row ++ Row.ofListing (String.ofList rest) := by
  induction t with
  | nil => rfl
  | cons l t ih =>
    rw [chars_cons, Row.ofListing_append_feed, Row.ofListing_of_no_feed l.noFeed_piece,
      l.ofChars?_eq, ih, pods_cons]
    cases l.content.pod? <;> rfl

theorem ofListing_text_eq (t : WideTable) : Row.ofListing t.text = t.pods.map PodLine.row := by
  have h := t.ofListing_chars []
  rwa [List.append_nil, Row.ofListing_of_no_feed List.not_mem_nil, Row.ofChars?_nil,
    Option.toList_none, List.append_nil] at h

/-- A pod whose line has an annotation of two tokens and an age. -/
def annotatedPod : PodLine :=
  ⟨"b", "3/3", "Running", 12,
    .annotated ⟨["(5h"], "ago)", by decide, by decide, by decide, by decide⟩ "41d"
      (some "10.0.0.2") (by decide +kernel), some "worker-11", ["<none>", "<none>"],
    by decide, by decide, by decide⟩

/-- Another pod with an annotation of two tokens and an age. -/
def datedPod : PodLine :=
  ⟨"p", "3/3", "Running", 2,
    .annotated ⟨["(5h"], "ago)", by decide, by decide, by decide, by decide⟩ "12d"
      (some "10.1.2.3") (by decide +kernel),
    some "worker-11", ["<none>", "<none>"], by decide, by decide, by decide⟩

/-- A heading and a pod line of each shape, with both line endings. -/
def sample : WideTable :=
  [⟨.noise ["NAME", "READY", "STATUS"] (by decide), "NAME  READY  STATUS".toList,
      Chars.words_eq_iff.1 (by decide +kernel), by decide +kernel, .feed⟩,
    ⟨.pod ⟨"a", "3/3", "Running", 0, .canonical "41d" (some "10.0.0.1") (by decide), some "n1",
        ["<none>", "<none>"], by decide, by decide, by decide⟩,
      "a  3/3\tRunning 0 41d 10.0.0.1 n1 <none> <none> ".toList,
      Chars.words_eq_iff.1 (by decide +kernel), by decide +kernel, .returnFeed⟩,
    ⟨.pod annotatedPod, "b 3/3 Running 12 (5h ago) 41d 10.0.0.2 worker-11 <none> <none>".toList,
      Chars.words_eq_iff.1 (by decide +kernel), by decide +kernel, .feed⟩,
    ⟨.pod ⟨"c", "0/2", "Pending", 1,
        .displaced ⟨[], "(1/4)", by decide, by decide, by decide, by decide⟩ none (by decide), none,
        ["1d", "<none>", "<none>"], by decide, by decide, by decide⟩,
      "\u3000c 0/2 Pending 1 (1/4) <none> <none> 1d <none> <none>".toList,
      Chars.words_eq_iff.1 (by decide +kernel), by decide +kernel, .feed⟩]

end WideTable

end NodeHealth
