import Mathlib.Data.List.Induction
import Mathlib.Logic.Relation
import NodeHealth.Proofs.Text.Spacing

/-!
# Lines

A text is read line by line (`Text.readLines`) by a reader that passes over an empty line and for
which a carriage return at the end of a line makes no difference (`Text.ReadsLines`). What such a
reader finds in a line depends on that line alone.

* `readLines_append_feed`, `readLines_append`: a line feed separates what is read before it from
  what is read behind it.
* `readLines_append_end`: so does the end of a line, whatever way it ends.
* `readLines_of_edits`: lines in which the reader finds nothing may be put in or taken out anywhere.

`Text.keepLines` deletes the lines of a text that fail a test, each together with the line feed
that ends it. The lines that stay keep their endings, and an unfinished last line stays unfinished.

* `keepLines_true`: a text from which no line is deleted stays as it is.
* `lines_keepLines`: the lines of what is left are the lines that pass the test, in their order.
-/

namespace NodeHealth

namespace Chars

/-- What is left of the pieces between line feeds when the lines that fail a test are deleted. The
last piece is the only one without a line feed behind it. -/
def keepPieces (keep : List Char → Bool) : List (List Char) → List Char
  | [] => []
  | [piece] => if keep piece then piece else []
  | piece :: pieces =>
    (if keep (dropReturn piece) then piece ++ ['\n'] else []) ++ keepPieces keep pieces

/-- A text without the lines that fail a test. -/
def keepLines (keep : List Char → Bool) (cs : List Char) : List Char :=
  keepPieces keep (splitWhen (· == '\n') cs)

/-! ## Pieces between line feeds -/

theorem not_mem_of_mem_splitWhen {α : Type} {p : α → Bool} {cs piece : List α}
    (h : piece ∈ splitWhen p cs) : ∀ c ∈ piece, p c = false := by
  induction cs generalizing piece with
  | nil =>
    rw [splitWhen, List.mem_singleton] at h
    rw [h]
    exact List.forall_mem_nil _
  | cons x cs ih =>
    rw [splitWhen] at h
    split at h
    · rcases List.mem_cons.1 h with rfl | h
      · exact List.forall_mem_nil _
      · exact ih h
    · next hx =>
      cases hsplit : splitWhen p cs with
      | nil => exact absurd hsplit (splitWhen_ne_nil p cs)
      | cons first pieces =>
        rw [hsplit] at h ih
        rcases List.mem_cons.1 h with rfl | h
        · exact List.forall_mem_cons.2 ⟨Bool.eq_false_iff.2 hx, ih List.mem_cons_self⟩
        · exact ih (List.mem_cons_of_mem _ h)

theorem keepPieces_cons (keep : List Char → Bool) (piece : List Char) {pieces : List (List Char)}
    (h : pieces ≠ []) :
    keepPieces keep (piece :: pieces) =
      (if keep (dropReturn piece) then piece ++ ['\n'] else []) ++ keepPieces keep pieces := by
  cases pieces with
  | nil => exact absurd rfl h
  | cons next pieces => rfl

theorem ofPieces_cons (piece : List Char) {pieces : List (List Char)} (h : pieces ≠ []) :
    ofPieces (piece :: pieces) = dropReturn piece :: ofPieces pieces := by
  cases pieces with
  | nil => exact absurd rfl h
  | cons next pieces => rfl

theorem lines_of_no_feed {piece : List Char} (h : ∀ c ∈ piece, (c == '\n') = false) :
    lines piece = if piece.isEmpty then [] else [piece] := by
  rw [lines, splitWhen_of_forall h, ofPieces]

theorem lines_feed {piece : List Char} (h : ∀ c ∈ piece, (c == '\n') = false) (cs : List Char) :
    lines (piece ++ '\n' :: cs) = dropReturn piece :: lines cs := by
  rw [lines, splitWhen_append_cons _ piece cs (by rfl), splitWhen_of_forall h,
    List.singleton_append, ofPieces_cons _ (splitWhen_ne_nil _ cs), lines]

/-- The lines are the pieces between the line feeds, but for an empty last piece and the carriage
returns, to a reader that sees neither. -/
theorem filterMap_ofPieces {β : Type} {read : List Char → Option β} (hnil : read [] = none)
    (hreturn : ∀ cs, read (dropReturn cs) = read cs) (pieces : List (List Char)) :
    (ofPieces pieces).filterMap read = pieces.filterMap read := by
  match pieces with
  | [] => rfl
  | [piece] =>
    rw [ofPieces]
    split
    · next h =>
      rw [List.isEmpty_iff.1 h, List.filterMap_cons_none hnil]
    · rfl
  | piece :: next :: pieces =>
    rw [ofPieces_cons piece (List.cons_ne_nil next pieces), List.filterMap_cons,
      List.filterMap_cons, hreturn, filterMap_ofPieces hnil hreturn (next :: pieces)]

/-! ## What is left -/

theorem lines_keepPieces (keep : List Char → Bool) {pieces : List (List Char)}
    (h : ∀ piece ∈ pieces, ∀ c ∈ piece, (c == '\n') = false) :
    lines (keepPieces keep pieces) = (ofPieces pieces).filter keep := by
  match pieces with
  | [] => rfl
  | [piece] =>
    have hpiece := h piece List.mem_cons_self
    rw [keepPieces, ofPieces]
    cases hkeep : keep piece with
    | true =>
      rw [if_pos rfl, lines_of_no_feed hpiece]
      cases piece <;> simp [hkeep]
    | false =>
      rw [if_neg Bool.false_ne_true]
      cases piece <;> simp [hkeep, lines, splitWhen, ofPieces]
  | piece :: next :: pieces =>
    have hpiece := h piece List.mem_cons_self
    have hrest : lines (keepPieces keep (next :: pieces)) =
        (ofPieces (next :: pieces)).filter keep :=
      lines_keepPieces keep fun x hx => h x (List.mem_cons_of_mem piece hx)
    rw [keepPieces_cons keep piece (List.cons_ne_nil next pieces),
      ofPieces_cons piece (List.cons_ne_nil next pieces)]
    cases hkeep : keep (dropReturn piece) with
    | true =>
      rw [if_pos rfl, List.append_assoc, List.singleton_append, lines_feed hpiece, hrest,
        List.filter_cons_of_pos hkeep]
    | false =>
      rw [if_neg Bool.false_ne_true, List.nil_append, hrest,
        List.filter_cons_of_neg (Bool.eq_false_iff.1 hkeep)]

theorem lines_keepLines (keep : List Char → Bool) (cs : List Char) :
    lines (keepLines keep cs) = (lines cs).filter keep :=
  lines_keepPieces keep fun _ h => not_mem_of_mem_splitWhen h

theorem keepLines_true (cs : List Char) : keepLines (fun _ => true) cs = cs := by
  unfold keepLines
  induction cs with
  | nil => rfl
  | cons c cs ih =>
    rw [splitWhen]
    split
    · next hc =>
      rw [keepPieces_cons _ _ (splitWhen_ne_nil _ cs), ih, eq_of_beq hc]
      rfl
    · cases hsplit : splitWhen (· == '\n') cs with
      | nil => exact absurd hsplit (splitWhen_ne_nil _ cs)
      | cons first pieces =>
        rw [hsplit] at ih
        rw [← ih]
        cases pieces <;> rfl

end Chars

namespace Text

/-! ## Reading line by line -/

/-- What a reader of single lines finds in a text. -/
def readLines {β : Type} (read : String → Option β) (text : String) : List β :=
  (lines text).filterMap read

/-- An empty line says nothing to the reader, and a carriage return at the end of a line makes no
difference to it. -/
structure ReadsLines {β : Type} (read : String → Option β) : Prop where
  empty : read "" = none
  returns : ∀ line, read (line ++ "\r") = read line

/-- A text of complete lines: it is empty or ends with a line feed. -/
def IsClosed (text : String) : Prop := text = "" ∨ text.toList.getLast? = some '\n'

/-- A line ends here: with the text, or with a line feed that may have a carriage return before
it. -/
def EndsLine (rest : String) : Prop :=
  rest = "" ∨ (∃ more, rest = "\n" ++ more) ∨ ∃ more, rest = "\r\n" ++ more

theorem IsClosed.eq_empty_or_append {text : String} (h : IsClosed text) :
    text = "" ∨ ∃ front, text = front ++ "\n" := by
  refine h.imp_right fun hfeed => ?_
  obtain ⟨front, hfront⟩ := List.getLast?_eq_some_iff.1 hfeed
  refine ⟨String.ofList front, String.toList_injective ?_⟩
  rw [hfront, String.toList_append, String.toList_ofList]
  rfl

/-- Every text is some complete lines and what stands behind the last line feed. -/
theorem exists_closed_append (text : String) :
    ∃ closed tail, text = closed ++ tail ∧ IsClosed closed ∧ '\n' ∉ tail.toList := by
  suffices h : ∀ cs : List Char, ∃ closed tail, String.ofList cs = closed ++ tail ∧
      IsClosed closed ∧ '\n' ∉ tail.toList by
    have htext := h text.toList
    rwa [String.ofList_toList] at htext
  intro cs
  induction cs using List.reverseRecOn with
  | nil => exact ⟨"", "", rfl, .inl rfl, by simp⟩
  | append_singleton cs c ih =>
    by_cases hfeed : c = '\n'
    · subst hfeed
      refine ⟨String.ofList (cs ++ ['\n']), "", by simp, .inr ?_, by simp⟩
      rw [String.toList_ofList, List.getLast?_concat]
    · obtain ⟨closed, tail, hsplit, hclosed, htail⟩ := ih
      refine ⟨closed, tail ++ String.ofList [c], ?_, hclosed, ?_⟩
      · rw [String.ofList_append, hsplit, String.append_assoc]
      · simpa [htail] using Ne.symm hfeed

namespace ReadsLines

variable {β : Type} {read : String → Option β}

theorem read_dropReturn (h : ReadsLines read) (cs : List Char) :
    read (String.ofList (Chars.dropReturn cs)) = read (String.ofList cs) := by
  unfold Chars.dropReturn
  split
  · next hreturn =>
    obtain ⟨front, rfl⟩ := List.getLast?_eq_some_iff.1 hreturn
    have hline : String.ofList (front ++ ['\r']) = String.ofList front ++ "\r" := by
      apply String.toList_injective
      rw [String.toList_append, String.toList_ofList, String.toList_ofList]
      rfl
    rw [List.dropLast_concat, hline, h.returns]
  · rfl

theorem readLines_eq (h : ReadsLines read) (text : String) :
    readLines read text =
      (Chars.splitWhen (· == '\n') text.toList).filterMap (read ∘ String.ofList) := by
  rw [readLines, lines, List.filterMap_map, Chars.lines]
  exact Chars.filterMap_ofPieces h.empty h.read_dropReturn _

theorem readLines_empty (h : ReadsLines read) : readLines read "" = [] := by
  rw [h.readLines_eq]
  exact List.filterMap_cons_none h.empty

/-- A line feed separates what is read before it from what is read behind it. -/
theorem readLines_append_feed (h : ReadsLines read) (a b : String) :
    readLines read (a ++ "\n" ++ b) = readLines read a ++ readLines read b := by
  have hchars : (a ++ "\n" ++ b).toList = a.toList ++ '\n' :: b.toList := by simp
  rw [h.readLines_eq, h.readLines_eq, h.readLines_eq, hchars,
    Chars.splitWhen_append_cons _ _ _ (by rfl), List.filterMap_append]

/-- What follows complete lines does not change how they are read, nor they what follows. -/
theorem readLines_append (h : ReadsLines read) {a : String} (ha : IsClosed a) (b : String) :
    readLines read (a ++ b) = readLines read a ++ readLines read b := by
  rcases ha.eq_empty_or_append with rfl | ⟨front, rfl⟩
  · rw [String.empty_append, h.readLines_empty, List.nil_append]
  · have hend := h.readLines_append_feed front ""
    rw [String.append_empty, h.readLines_empty, List.append_nil] at hend
    rw [h.readLines_append_feed, hend]

theorem readLines_of_no_feed (h : ReadsLines read) {line : String} (hline : '\n' ∉ line.toList) :
    readLines read line = (read line).toList := by
  have hpiece : Chars.splitWhen (· == '\n') line.toList = [line.toList] := by
    refine Chars.splitWhen_of_forall fun c hc => ?_
    exact beq_false_of_ne fun he => hline (he ▸ hc)
  rw [h.readLines_eq, hpiece]
  cases hread : read line <;> simp [hread]

theorem readLines_append_return (h : ReadsLines read) (text : String) :
    readLines read (text ++ "\r") = readLines read text := by
  obtain ⟨closed, tail, rfl, hclosed, htail⟩ := exists_closed_append text
  have hreturn : '\n' ∉ (tail ++ "\r").toList := by simpa using htail
  rw [String.append_assoc, h.readLines_append hclosed, h.readLines_append hclosed,
    h.readLines_of_no_feed hreturn, h.readLines_of_no_feed htail, h.returns]

/-- What stands before the end of a line is read apart from what follows. -/
theorem readLines_append_end (h : ReadsLines read) (text : String) {rest : String}
    (hrest : EndsLine rest) :
    readLines read (text ++ rest) = readLines read text ++ readLines read rest := by
  have hfeed : ∀ front more : String,
      readLines read (front ++ ("\n" ++ more)) = readLines read front ++ readLines read more := by
    intro front more
    rw [← String.append_assoc, h.readLines_append_feed]
  rcases hrest with rfl | ⟨more, rfl⟩ | ⟨more, rfl⟩
  · rw [String.append_empty, h.readLines_empty, List.append_nil]
  · have hnone := hfeed "" more
    rw [String.empty_append, h.readLines_empty, List.nil_append] at hnone
    rw [hfeed, hnone]
  · have hbreak : "\r\n" ++ more = "\r" ++ ("\n" ++ more) := by
      apply String.toList_injective
      simp
    have hnone := h.readLines_append_return ""
    rw [String.empty_append, h.readLines_empty] at hnone
    rw [hbreak, hfeed, hnone, List.nil_append, ← String.append_assoc, hfeed,
      h.readLines_append_return]

end ReadsLines

/-! ## Lines that say nothing -/

/-- A line that is idle is taken out of a text: with the line feed behind it, or at the end of the
text, unfinished, by itself or with the line feed before it. -/
inductive DropsLine (idle : String → Prop) : String → String → Prop
  | complete (front line rest : String) : IsClosed front → '\n' ∉ line.toList → idle line →
      DropsLine idle (front ++ line ++ "\n" ++ rest) (front ++ rest)
  | unfinished (front line : String) : IsClosed front → '\n' ∉ line.toList → idle line →
      DropsLine idle (front ++ line) front
  | last (front line : String) : '\n' ∉ line.toList → idle line →
      DropsLine idle (front ++ "\n" ++ line) front

namespace ReadsLines

variable {β : Type} {read : String → Option β} {idle : String → Prop}

theorem readLines_of_dropsLine (h : ReadsLines read) (hidle : ∀ line, idle line → read line = none)
    {text text' : String} (hdrop : DropsLine idle text text') :
    readLines read text = readLines read text' := by
  have hnone : ∀ {line : String}, '\n' ∉ line.toList → idle line → readLines read line = [] := by
    intro line hfeed hline
    rw [h.readLines_of_no_feed hfeed, hidle line hline]
    rfl
  cases hdrop with
  | complete front line rest hfront hfeed hline =>
    rw [h.readLines_append_feed, h.readLines_append hfront, hnone hfeed hline, List.append_nil,
      h.readLines_append hfront]
  | unfinished front line hfront hfeed hline =>
    rw [h.readLines_append hfront, hnone hfeed hline, List.append_nil]
  | last front line hfeed hline => rw [h.readLines_append_feed, hnone hfeed hline, List.append_nil]

/-- Idle lines may be put into a text or taken out of it, any number of them. -/
theorem readLines_of_edits (h : ReadsLines read) (hidle : ∀ line, idle line → read line = none)
    {text text' : String} (hedits : Relation.EqvGen (DropsLine idle) text text') :
    readLines read text = readLines read text' :=
  (eq_equivalence.comap (readLines read)).eqvGen_iff.1
    (hedits.mono fun _ _ => h.readLines_of_dropsLine hidle)

end ReadsLines

/-! ## Lines that stay -/

/-- A text without the lines that fail a test. -/
def keepLines (keep : String → Bool) (text : String) : String :=
  String.ofList (Chars.keepLines (keep ∘ String.ofList) text.toList)

/-- A text from which no line is deleted stays as it is. -/
theorem keepLines_true (text : String) : keepLines (fun _ => true) text = text := by
  have hkeep : keepLines (fun _ => true) text =
      String.ofList (Chars.keepLines (fun _ => true) text.toList) := rfl
  rw [hkeep, Chars.keepLines_true, String.ofList_toList]

/-- The lines of what is left are the lines that pass the test, in their order. -/
theorem lines_keepLines (keep : String → Bool) (text : String) :
    lines (keepLines keep text) = (lines text).filter keep := by
  rw [lines, keepLines, String.toList_ofList, Chars.lines_keepLines, lines, List.filter_map]

example : keepLines (· != "b") "a\r\nb\r\nc" = "a\r\nc" := by decide +kernel

end Text

end NodeHealth
