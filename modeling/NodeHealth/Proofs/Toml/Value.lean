import NodeHealth.Proofs.Toml.Number
import NodeHealth.Proofs.Toml.Quoted

/-!
# Written values read back

`Denotes item cs v` says that a reader takes the text for the value wherever a value may stand, on a
line or within an array (`Stops`), and that blanks before it are told apart from it (`Opens`).

* `denotes_form`, `denotes_digits`, `denotes_booleanWord`: texts, counts and truth values.
* `denotes_row`, `denotes_lines`: arrays, on one line or with one item per line.
* `Writes.denotes`: values that are written in these ways.
-/

namespace NodeHealth.Toml

open Quoted (NoMark)

/-- What may stand behind a value: nothing, the end of the line, or what separates or closes the
items of an array. -/
def Stops (cs : List Char) : Prop := ∀ c ∈ cs.head?, c = '\n' ∨ c = ',' ∨ c = ']'

/-- A value may begin with the character: it is no blank, does not end a line, opens no comment and
closes no array. -/
structure Opens (c : Char) : Prop where
  noSpace : Quoted.isSpace c = false
  noFeed : c ≠ '\n'
  noReturn : c ≠ '\r'
  noComment : c ≠ '#'
  noClose : c ≠ ']'

instance (c : Char) : Decidable (Opens c) :=
  decidable_of_iff
    (Quoted.isSpace c = false ∧ c ≠ '\n' ∧ c ≠ '\r' ∧ c ≠ '#' ∧ c ≠ ']')
    ⟨fun ⟨h1, h2, h3, h4, h5⟩ => ⟨h1, h2, h3, h4, h5⟩,
      fun ⟨h1, h2, h3, h4, h5⟩ => ⟨h1, h2, h3, h4, h5⟩⟩

/-- The reader takes the text for the value. -/
structure Denotes (item : Reader Value) (cs : List Char) (v : Value) : Prop where
  opens : ∃ c tail, cs = c :: tail ∧ Opens c
  reads : ∀ rest, Stops rest → item (cs ++ rest) = some (v, rest)

/-- A character that passes a test which blanks, ends of lines, comments and brackets fail. -/
theorem opens_of_test {p : Char → Bool} (hp : [' ', '\t', '\n', '\r', '#', ']'].any p = false)
    {c : Char} (h : p c = true) : Opens c := by
  simp only [List.any_cons, List.any_nil, Bool.or_false, Bool.or_eq_false_iff] at hp
  obtain ⟨hblank, htab, hfeed, hreturn, hcomment, hclose⟩ := hp
  refine ⟨?_, Chars.ne_of_test h hfeed, Chars.ne_of_test h hreturn, Chars.ne_of_test h hcomment,
    Chars.ne_of_test h hclose⟩
  simp [Quoted.isSpace, Chars.ne_of_test h hblank, Chars.ne_of_test h htab]

theorem stops_cons {c : Char} (h : c = '\n' ∨ c = ',' ∨ c = ']') (cs : List Char) :
    Stops (c :: cs) := by
  intro x hx
  cases hx
  exact h

theorem Stops.noMark {cs : List Char} (h : Stops cs) {q : Char}
    (hq : q ≠ '\n' ∧ q ≠ ',' ∧ q ≠ ']') : NoMark q cs := by
  rintro rest rfl
  rcases h q rfl with h | h | h
  · exact hq.1 h
  · exact hq.2.1 h
  · exact hq.2.2 h

/-! ## Texts -/

theorem exists_mark_write (form : Quoted.Form) (cs : List Char) :
    ∃ c tail, form.write cs = c :: tail ∧ (c = '"' ∨ c = '\'') := by
  cases form with
  | basic => exact ⟨_, _, rfl, .inl rfl⟩
  | literal => exact ⟨_, _, rfl, .inr rfl⟩
  | basicLines => exact ⟨_, _, rfl, .inl rfl⟩
  | literalLines => exact ⟨_, _, rfl, .inr rfl⟩

theorem scalar_form {form : Quoted.Form} {cs : List Char} (h : form.Suits cs) {rest : List Char}
    (hrest : Stops rest) :
    scalar (form.write cs ++ rest) = some (.text (String.ofList cs), rest) := by
  have hread := Quoted.read_form h (hrest.noMark (by decide)) (hrest.noMark (by decide))
  obtain ⟨c, tail, hwrite, hmark⟩ := exists_mark_write form cs
  rw [hwrite, List.cons_append] at hread ⊢
  rcases hmark with rfl | rfl
  · rw [scalar, hread, Option.map_some]
  · rw [scalar, hread, Option.map_some]

/-- What opens neither an array nor a table in braces is a scalar. -/
theorem value_scalar (depth : Nat) {c : Char} (harray : c ≠ '[') (htable : c ≠ '{')
    (cs : List Char) : value depth (c :: cs) = scalar (c :: cs) := by
  cases depth with
  | zero => rfl
  | succ depth =>
    rw [value]
    · exact fun _ h => harray (List.cons.inj h).1
    · exact fun _ h => htable (List.cons.inj h).1

/-- A text in a form that suits it. -/
theorem denotes_form (depth : Nat) {form : Quoted.Form} {cs : List Char} (h : form.Suits cs) :
    Denotes (value depth) (form.write cs) (.text (String.ofList cs)) := by
  obtain ⟨c, tail, hwrite, hmark⟩ := exists_mark_write form cs
  have hopens : Opens c ∧ c ≠ '[' ∧ c ≠ '{' := by
    rcases hmark with rfl | rfl <;> decide
  refine ⟨⟨c, tail, hwrite, hopens.1⟩, fun rest hrest => ?_⟩
  have hscalar := scalar_form h hrest
  rw [hwrite, List.cons_append] at hscalar ⊢
  rw [value_scalar depth hopens.2.1 hopens.2.2, hscalar]

/-! ## Counts and words -/

theorem isScalarChar_of_isDigit {c : Char} (h : c.isDigit = true) : isScalarChar c = true := by
  simp [isScalarChar, Char.isAlphanum, h]

theorem scalar_run {run rest : List Char} {v : Value} (hne : run ≠ [])
    (hchars : ∀ c ∈ run, isScalarChar c = true) (hv : scalarOf? run = some v) (h : Stops rest) :
    scalar (run ++ rest) = some (v, rest) := by
  have hspan : (run ++ rest).span isScalarChar = (run, rest) := by
    refine Chars.span_append hchars ?_
    intro c hc
    rcases h c hc with rfl | rfl | rfl <;> decide
  have htime : timeAfterDate run rest = none := by
    unfold timeAfterDate
    split
    · next more => exact absurd rfl (h.noMark (by decide) more)
    · rfl
  obtain ⟨c, tail, rfl⟩ := List.exists_cons_of_ne_nil hne
  have hc : isScalarChar c = true := hchars c List.mem_cons_self
  rw [scalar.eq_3]
  · simp only [hspan, htime, hv]
    rfl
  · exact fun _ h => Chars.ne_of_test hc (by decide) (List.cons.inj h).1
  · exact fun _ h => Chars.ne_of_test hc (by decide) (List.cons.inj h).1

/-- A number or word of its own. -/
theorem denotes_run (depth : Nat) {run : List Char} {v : Value} (hne : run ≠ [])
    (hchars : ∀ c ∈ run, isScalarChar c = true) (hv : scalarOf? run = some v) :
    Denotes (value depth) run v := by
  obtain ⟨c, tail, rfl⟩ := List.exists_cons_of_ne_nil hne
  have hc : isScalarChar c = true := hchars c List.mem_cons_self
  refine ⟨⟨c, tail, rfl, opens_of_test (by decide) hc⟩, fun rest hrest => ?_⟩
  have hscalar := scalar_run hne hchars hv hrest
  rw [List.cons_append] at hscalar ⊢
  rw [value_scalar depth (Chars.ne_of_test hc (by decide)) (Chars.ne_of_test hc (by decide)),
    hscalar]

theorem denotes_digits (depth : Nat) {n : Nat} (hn : n < Numeral.signedLimit) :
    Denotes (value depth) (Nat.toDigits 10 n) (.integer n) :=
  denotes_run depth Nat.toDigits_ne_nil
    (fun _ hc => isScalarChar_of_isDigit (Numeral.isDigit_of_mem_toDigits hc))
    (scalarOf?_toDigits hn)

/-- The word for a truth value. -/
def booleanWord (b : Bool) : List Char := (if b then "true" else "false").toList

theorem denotes_booleanWord (depth : Nat) (b : Bool) :
    Denotes (value depth) (booleanWord b) (.boolean b) := by
  cases b
  · exact denotes_run depth (by decide) (List.all_eq_true.1 rfl) (by rfl)
  · exact denotes_run depth (by decide) (List.all_eq_true.1 rfl) (by rfl)

/-! ## Arrays -/

theorem skipLines_eq {cs tail : List Char} {c : Char} (hskip : Quoted.skipBreaks cs = c :: tail)
    (hc : c ≠ '#') : skipLines cs = c :: tail := by
  rw [skipLines]
  split
  · next h =>
    rw [hskip] at h
    exact absurd (List.cons.inj h).1 hc
  · exact hskip

theorem skipBreaks_opens {c : Char} (hc : Opens c) (cs : List Char) :
    Quoted.skipBreaks (c :: cs) = c :: cs := by
  rw [Quoted.skipBreaks.eq_3 c cs hc.noFeed fun _ h => absurd h hc.noReturn, hc.noSpace]
  rfl

theorem skipLines_opens {c : Char} (hc : Opens c) (cs : List Char) :
    skipLines (c :: cs) = c :: cs :=
  skipLines_eq (skipBreaks_opens hc cs) hc.noComment

/-- Blanks and line breaks before an item are passed over. -/
theorem skipLines_lead {lead : List Char} (hlead : ∀ x ∈ lead, x = ' ' ∨ x = '\n') {c : Char}
    (hc : Opens c) (cs : List Char) : skipLines (lead ++ c :: cs) = c :: cs := by
  refine skipLines_eq ?_ hc.noComment
  induction lead with
  | nil => exact skipBreaks_opens hc cs
  | cons x lead ih =>
    have hbreaks : Quoted.skipBreaks (x :: (lead ++ c :: cs)) =
        Quoted.skipBreaks (lead ++ c :: cs) := by
      rcases hlead x List.mem_cons_self with rfl | rfl <;> rfl
    rw [List.cons_append, hbreaks, ih fun y hy => hlead y (List.mem_cons_of_mem x hy)]

/-- What stands before an item on a line of its own. -/
def indent : List Char := ['\n', ' ', ' ', ' ', ' ']

/-- An item on a line of its own, with a comma behind it. -/
def itemLine (cs : List Char) : List Char := indent ++ cs ++ [',']

section Items

variable {item : Reader Value} {text cs tail rest : List Char} {v : Value} {vs : List Value}

theorem items_close (hskip : skipLines cs = ']' :: rest) : items item cs = some ([], rest) := by
  rw [items.eq_def]
  simp [hskip]

theorem items_last (h : Denotes item text v) (hskip : skipLines cs = text ++ ']' :: rest) :
    items item cs = some ([v], rest) := by
  obtain ⟨c, text', rfl, hc⟩ := h.opens
  have hread := h.reads (']' :: rest) (stops_cons (by decide) rest)
  have hend : skipLines (']' :: rest) = ']' :: rest := skipLines_eq rfl (by decide)
  rw [List.cons_append] at hread hskip
  rw [items.eq_def]
  simp [hskip, hc.noClose, hread, hend]

theorem items_more (h : Denotes item text v) (hskip : skipLines cs = text ++ ',' :: tail)
    (hlen : tail.length < cs.length) (htail : items item tail = some (vs, rest)) :
    items item cs = some (v :: vs, rest) := by
  obtain ⟨c, text', rfl, hc⟩ := h.opens
  have hread := h.reads (',' :: tail) (stops_cons (by decide) tail)
  have hcomma : skipLines (',' :: tail) = ',' :: tail := skipLines_opens (by decide) tail
  rw [List.cons_append] at hread hskip
  rw [items.eq_def]
  simp [hskip, hc.noClose, hread, hcomma, hlen, htail]

theorem items_lines {ps : List (List Char × Value)} (h : ∀ p ∈ ps, Denotes item p.1 p.2)
    (rest : List Char) :
    items item (ps.flatMap (fun p => itemLine p.1) ++ '\n' :: ']' :: rest) =
      some (ps.map Prod.snd, rest) := by
  induction ps with
  | nil => exact items_close (skipLines_eq rfl (by decide))
  | cons p ps ih =>
    have hp := h p List.mem_cons_self
    have ih := ih fun x hx => h x (List.mem_cons_of_mem p hx)
    generalize htail : ps.flatMap (fun p => itemLine p.1) ++ '\n' :: ']' :: rest = tail at ih
    have htext : (p :: ps).flatMap (fun p => itemLine p.1) ++ '\n' :: ']' :: rest =
        indent ++ (p.1 ++ ',' :: tail) := by
      rw [← htail]
      simp [itemLine]
    obtain ⟨c, text, hc, hopens⟩ := hp.opens
    rw [htext]
    refine items_more hp ?_ ?_ ih
    · rw [hc]
      exact skipLines_lead (by simp [indent]) hopens (text ++ ',' :: tail)
    · rw [List.length_append, List.length_append, List.length_cons]
      omega

/-- Items on one line, with a comma and a blank between them. -/
theorem items_row {lead : List Char} (hlead : ∀ x ∈ lead, x = ' ' ∨ x = '\n')
    {ps : List (List Char × Value)} (hne : ps ≠ []) (h : ∀ p ∈ ps, Denotes item p.1 p.2)
    (rest : List Char) :
    items item (lead ++ ([',', ' '].intercalate (ps.map Prod.fst) ++ ']' :: rest)) =
      some (ps.map Prod.snd, rest) := by
  match ps with
  | [] => exact absurd rfl hne
  | [p] =>
    obtain ⟨c, text, hc, hopens⟩ := (h p List.mem_cons_self).opens
    refine items_last (h p List.mem_cons_self) ?_
    simp only [List.map_cons, List.map_nil, List.intercalate_singleton, hc, List.cons_append]
    exact skipLines_lead hlead hopens _
  | p :: next :: ps =>
    obtain ⟨c, text, hc, hopens⟩ := (h p List.mem_cons_self).opens
    have ih := items_row (by simp : ∀ x ∈ [' '], x = ' ' ∨ x = '\n')
      (List.cons_ne_nil next ps) (fun q hq => h q (List.mem_cons_of_mem p hq)) rest
    generalize htail :
      [' '] ++ ([',', ' '].intercalate ((next :: ps).map Prod.fst) ++ ']' :: rest) = tail at ih
    have htext : [',', ' '].intercalate ((p :: next :: ps).map Prod.fst) ++ ']' :: rest =
        p.1 ++ ',' :: tail := by
      rw [← htail]
      simp [List.intercalate_cons_cons]
    rw [htext]
    refine items_more (h p List.mem_cons_self) ?_ ?_ ih
    · rw [hc]
      exact skipLines_lead hlead hopens _
    · simp only [List.length_append, List.length_cons]
      omega

end Items

theorem value_array {depth : Nat} {cs rest : List Char} {vs : List Value}
    (h : items (value depth) cs = some (vs, rest)) :
    value (depth + 1) ('[' :: cs) = some (.array vs, rest) := by
  rw [value, h, Option.map_some]

/-- Items between brackets on one line. -/
theorem denotes_row {depth : Nat} {ps : List (List Char × Value)}
    (h : ∀ p ∈ ps, Denotes (value depth) p.1 p.2) :
    Denotes (value (depth + 1)) ('[' :: [',', ' '].intercalate (ps.map Prod.fst) ++ [']'])
      (.array (ps.map Prod.snd)) := by
  refine ⟨⟨'[', _, rfl, by decide⟩, fun rest _ => ?_⟩
  have hitems : items (value depth) ([',', ' '].intercalate (ps.map Prod.fst) ++ ']' :: rest) =
      some (ps.map Prod.snd, rest) := by
    cases ps with
    | nil => exact items_close (skipLines_eq rfl (by decide))
    | cons p ps => exact items_row (List.forall_mem_nil _) (List.cons_ne_nil p ps) h rest
  have harray := value_array hitems
  rwa [List.append_assoc]

/-- Items on lines of their own, each with a comma behind it. -/
theorem denotes_lines {depth : Nat} {ps : List (List Char × Value)}
    (h : ∀ p ∈ ps, Denotes (value depth) p.1 p.2) :
    Denotes (value (depth + 1))
      ('[' :: ps.flatMap (fun p => itemLine p.1) ++ "\n]".toList)
      (.array (ps.map Prod.snd)) := by
  refine ⟨⟨'[', _, rfl, by decide⟩, fun rest _ => ?_⟩
  have hitems := value_array (items_lines h rest)
  rwa [List.append_assoc]

/-! ## Ways to write a value -/

/-- A text writes a value in which arrays are nested at most `depth` deep. A text is written in any
form that suits it, and an array on one line or with one item per line. -/
inductive Writes : (depth : Nat) → List Char → Value → Prop
  | text (depth : Nat) {form : Quoted.Form} {cs : List Char} (suits : form.Suits cs) :
      Writes depth (form.write cs) (.text (String.ofList cs))
  | count (depth : Nat) {n : Nat} (small : n < Numeral.signedLimit) :
      Writes depth (Nat.toDigits 10 n) (.integer n)
  | boolean (depth : Nat) (b : Bool) : Writes depth (booleanWord b) (.boolean b)
  | row {depth : Nat} {ps : List (List Char × Value)} (items : ∀ p ∈ ps, Writes depth p.1 p.2) :
      Writes (depth + 1) ('[' :: [',', ' '].intercalate (ps.map Prod.fst) ++ [']'])
        (.array (ps.map Prod.snd))
  | lines {depth : Nat} {ps : List (List Char × Value)} (items : ∀ p ∈ ps, Writes depth p.1 p.2) :
      Writes (depth + 1) ('[' :: ps.flatMap (fun p => itemLine p.1) ++ "\n]".toList)
        (.array (ps.map Prod.snd))

/-- A written value is read back. -/
theorem Writes.denotes {depth : Nat} {cs : List Char} {v : Value} (h : Writes depth cs v) :
    Denotes (value depth) cs v := by
  induction h with
  | text depth suits => exact denotes_form depth suits
  | count depth small => exact denotes_digits depth small
  | boolean depth b => exact denotes_booleanWord depth b
  | row _ ih => exact denotes_row ih
  | lines _ ih => exact denotes_lines ih

end NodeHealth.Toml
