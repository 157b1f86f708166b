import Mathlib.Data.Option.Basic
import NodeHealth.Pod.Listing
import NodeHealth.Proofs.Pod.Layout
import NodeHealth.Proofs.Text.Lines

/-!
# How lines become rows

* `ofTokens?_eq_some_iff`: what it takes for the tokens of a line to give a row, and which.
* `ofListing_eq`: the rows of a listing are those of the pieces between its line feeds; carriage
  returns and an unfinished last line make no difference.
* `ofListing_append_feed`: a line feed separates the rows before it from those behind it.
-/

namespace NodeHealth.Row

/-! ## One line -/

/-- A row needs nine tokens, of which the fourth is a count, a layout, and tokens in the columns of
the ip and the node. -/
theorem ofTokens?_eq_some_iff {tokens : List String} {row : Row} :
    ofTokens? tokens = some row ↔
      minTokens ≤ tokens.length ∧ ∃ count layout ip node,
        tokens[0]? = some row.name ∧ tokens[2]? = some row.phase ∧ tokens[3]? = some count ∧
        Numeral.word32? count = some row.restarts ∧ Layout.detect? tokens = some layout ∧
        tokens[layout.ipIndex]? = some ip ∧ tokens[layout.nodeIndex]? = some node ∧
        row.ip = column ip ∧ row.node = column node ∧
        row.overflow = (layout.remark? tokens).map overflowOf := by
  simp only [ofTokens?, Option.bind_eq_bind, Option.bind_eq_some_iff, Option.guard_eq_some',
    Option.some.injEq]
  constructor
  · rintro ⟨-, hlen, name, hname, phase, hphase, count, hcount, restarts, hrestarts, layout,
      hlayout, ip, hip, node, hnode, rfl⟩
    exact ⟨hlen, count, layout, ip, node, hname, hphase, hcount, hrestarts, hlayout, hip, hnode,
      rfl, rfl, rfl⟩
  · rintro ⟨hlen, count, layout, ip, node, hname, hphase, hcount, hrestarts, hlayout, hip, hnode,
      heip, henode, hoverflow⟩
    refine ⟨(), hlen, _, hname, _, hphase, count, hcount, _, hrestarts, layout, hlayout, ip, hip,
      node, hnode, ?_⟩
    rw [← heip, ← henode, ← hoverflow]

theorem ofTokens?_eq_none {tokens : List String} (h : tokens.length < minTokens) :
    ofTokens? tokens = none := by
  cases hrow : ofTokens? tokens with
  | none => rfl
  | some row =>
    have := (ofTokens?_eq_some_iff.1 hrow).1
    omega

/-- What stands behind the eighth token matters only in the columns of the ip and the node. -/
theorem ofTokens?_congr {tokens tokens' : List String} (h : tokens.take 8 = tokens'.take 8)
    {row : Row} (hrow : ofTokens? tokens = some row) {layout : Layout}
    (hlayout : Layout.detect? tokens = some layout) (hlen : minTokens ≤ tokens'.length)
    {ip node : String} (hip : tokens'[layout.ipIndex]? = some ip)
    (hnode : tokens'[layout.nodeIndex]? = some node) :
    ofTokens? tokens' = some { row with ip := column ip, node := column node } := by
  obtain ⟨-, count, layout', ip', node', hname, hphase, hcount, hrestarts, hlayout', -, -, -, -,
    hoverflow⟩ := ofTokens?_eq_some_iff.1 hrow
  have hsame : layout' = layout := by
    rw [hlayout] at hlayout'
    exact (Option.some.inj hlayout').symm
  subst hsame
  refine ofTokens?_eq_some_iff.2 ⟨hlen, count, layout', ip, node, ?_, ?_, ?_, hrestarts, ?_, hip,
    hnode, rfl, rfl, ?_⟩
  · rw [← Layout.getElem?_congr h (by decide), hname]
  · rw [← Layout.getElem?_congr h (by decide), hphase]
  · rw [← Layout.getElem?_congr h (by decide), hcount]
  · rw [← Layout.detect?_congr h, hlayout']
  · rw [← Layout.remark?_congr h hlayout', hoverflow]

/-! ## Many lines -/

/-- The row of a line given by its characters. -/
def ofChars? (cs : List Char) : Option Row := ofTokens? ((Chars.words cs).map String.ofList)

theorem ofLine?_ofList (cs : List Char) : ofLine? (String.ofList cs) = ofChars? cs := by
  rw [ofLine?, Text.words, String.toList_ofList, ofChars?]

/-- A line made of some tokens is read as these. -/
theorem ofChars?_of_spaced {tokens : List String} {cs : List Char}
    (h : Chars.Spaced (tokens.map String.toList) cs) : ofChars? cs = ofTokens? tokens := by
  rw [ofChars?, Chars.words_of_spaced h, List.map_map]
  simp [Function.comp_def]

theorem ofChars?_nil : ofChars? [] = none := rfl

theorem readsLines_ofLine? : Text.ReadsLines ofLine? where
  empty := rfl
  returns line := by
    have hwords : Text.words (line ++ "\r") = Text.words line := Text.words_append_return line
    rw [ofLine?, hwords, ofLine?]

/-- The rows of a listing are those of the pieces between its line feeds. -/
theorem ofListing_eq (text : String) :
    ofListing text = (Chars.splitWhen (· == '\n') text.toList).filterMap ofChars? := by
  have hline : (ofLine? ∘ String.ofList) = ofChars? := funext ofLine?_ofList
  rw [← hline]
  exact readsLines_ofLine?.readLines_eq text

/-- A line feed separates the rows before it from those behind it. -/
theorem ofListing_append_feed (a b : List Char) :
    ofListing (String.ofList (a ++ '\n' :: b)) =
      ofListing (String.ofList a) ++ ofListing (String.ofList b) := by
  have htext : String.ofList (a ++ '\n' :: b) = String.ofList a ++ "\n" ++ String.ofList b := by
    apply String.toList_injective
    simp
  rw [htext]
  exact readsLines_ofLine?.readLines_append_feed _ _

/-- A text without line feeds is one line. -/
theorem ofListing_of_no_feed {cs : List Char} (h : '\n' ∉ cs) :
    ofListing (String.ofList cs) = (ofChars? cs).toList := by
  rw [← ofLine?_ofList]
  exact readsLines_ofLine?.readLines_of_no_feed (by rwa [String.toList_ofList])

end NodeHealth.Row
