import NodeHealth.Proofs.Text.Separated
import NodeHealth.Toml.Quoted

/-!
# Written strings read back

A text is written in one of four forms, and what stands behind a string must not begin with a mark,
since up to two marks may stand at the end of a text with several lines. Each form has a lemma that
its body reads back, and `read_form` puts them together: whatever form a text is written in, if only
the form suits the text, it reads back, and what stands behind it is left. The form that a writer
chooses suits the text (`Form.suits_ofText`).

* `basic_escapeFrom`, `basicLines_escapeFrom`: bodies with escapes, which may hold any text.
* `literal_append`, `literalLines_append`: bodies without escapes, which may not.
-/

namespace NodeHealth.Toml.Quoted

/-! ## Written characters -/

/-- The ways to write a character other than a quotation mark in a string with escapes. -/
inductive Written (several : Bool) (c : Char) : List Char → Prop
  | plain (isPlain : isPlain c = true) (noBackslash : c ≠ '\\') : Written several c [c]
  | feed (isSeveral : several = true) (isFeed : c = '\n') : Written several c ['\n']
  | escape {tail : List Char} (stays : ∀ rest, endsLine (tail ++ rest) = false)
      (denotes : ∀ rest, escape? (tail ++ rest) = some (c, rest)) : Written several c ('\\' :: tail)

theorem toNat_lt_of_not_isPlain {c : Char} (h : isPlain c = false) : c.toNat < Nat.pow 16 4 := by
  have hlimit : Nat.pow 16 4 = 65536 := rfl
  simp only [isPlain, Bool.or_eq_false_iff, Bool.and_eq_false_iff, decide_eq_false_iff_not] at h
  omega

theorem written_escapeChar (several : Bool) (c : Char) :
    Written several c (escapeChar several c) := by
  unfold escapeChar
  split
  · next h => subst h; exact .escape (fun _ => rfl) fun _ => rfl
  split
  · next h => subst h; exact .escape (fun _ => rfl) fun _ => rfl
  split
  · next h =>
    split
    · next hseveral => exact .feed hseveral h
    · subst h; exact .escape (fun _ => rfl) fun _ => rfl
  split
  · next h => subst h; exact .escape (fun _ => rfl) fun _ => rfl
  split
  · next h => subst h; exact .escape (fun _ => rfl) fun _ => rfl
  split
  · next h => subst h; exact .escape (fun _ => rfl) fun _ => rfl
  split
  · next noBackslash hplain => exact .plain hplain noBackslash
  · next hplain =>
    have hvalue := Hex.value?_fixed Hex.digit?_upperDigit 4 c.toNat
      (toNat_lt_of_not_isPlain (Bool.eq_false_iff.2 hplain))
    refine .escape (fun _ => rfl) fun rest => ?_
    simp only [Hex.fixed, List.nil_append, List.cons_append] at hvalue ⊢
    simp [escape?, hvalue, Hex.scalar?_toNat]

/-- How the body of a text that is not empty begins: with the first character, or with an escape. A
quotation mark stands for itself only where it is one of two in a row. -/
theorem exists_cons_escapeFrom (several : Bool) (run : Nat) (c : Char) (cs : List Char) :
    ∃ x xs, escapeFrom several run (c :: cs) = x :: xs ∧
      ((x = c ∧ (isPlain c = true ∨ c = '\n') ∧ (c = '"' → several = true ∧ run < 2)) ∨
        x = '\\') := by
  by_cases hc : c = '"'
  · rw [escapeFrom, if_pos hc]
    split
    · next h =>
      rw [Bool.and_eq_true, decide_eq_true_iff] at h
      exact ⟨_, _, rfl, .inl ⟨hc.symm, .inl (by rw [hc]; decide), fun _ => h⟩⟩
    · exact ⟨_, _, rfl, .inr rfl⟩
  · rw [escapeFrom, if_neg hc]
    have hwritten := written_escapeChar several c
    generalize escapeChar several c = w at hwritten
    cases hwritten with
    | plain hplain => exact ⟨_, _, rfl, .inl ⟨rfl, .inl hplain, fun h => absurd h hc⟩⟩
    | feed _ hfeed => exact ⟨_, _, rfl, .inl ⟨hfeed.symm, .inr hfeed, fun h => absurd h hc⟩⟩
    | escape => exact ⟨_, _, rfl, .inr rfl⟩

/-- No mark stands in front of the text. -/
def NoMark (q : Char) (cs : List Char) : Prop := ∀ rest, cs ≠ q :: rest

/-- No two marks in a row stand in front of the text. -/
def NoPair (q : Char) (cs : List Char) : Prop := ∀ rest, cs ≠ q :: q :: rest

/-! ## Escapes on one line -/

theorem basic_escape {cs rest : List Char} {c : Char} (h : escape? cs = some (c, rest)) :
    basic ('\\' :: cs) = (basic rest).map (consText c) := by
  rw [basic]
  split
  · next h' => rw [h] at h'; cases h'
  · next h' =>
    rw [h] at h'
    cases h'
    rfl

theorem basic_written {c : Char} {w : List Char} (h : Written false c w) (hc : c ≠ '"')
    (cs : List Char) : basic (w ++ cs) = (basic cs).map (consText c) := by
  cases h with
  | plain hplain noBackslash =>
    rw [List.singleton_append, basic.eq_4 c cs hc noBackslash, if_pos hplain]
  | feed hseveral => cases hseveral
  | escape _ denotes => exact basic_escape (denotes cs)

theorem basic_escapeFrom (run : Nat) (cs rest : List Char) :
    basic (escapeFrom false run cs ++ '"' :: rest) = some (cs, rest) := by
  induction cs generalizing run with
  | nil => rw [escapeFrom, List.nil_append, basic]
  | cons c cs ih =>
    by_cases hc : c = '"'
    · have hescape : escape? ('"' :: (escapeFrom false 0 cs ++ '"' :: rest)) =
          some ('"', escapeFrom false 0 cs ++ '"' :: rest) := rfl
      rw [escapeFrom, if_pos hc, Bool.false_and, if_neg Bool.false_ne_true, List.cons_append,
        List.cons_append, basic_escape hescape, ih, hc]
      rfl
    · rw [escapeFrom, if_neg hc, List.append_assoc,
        basic_written (written_escapeChar false c) hc, ih]
      rfl

/-! ## Escapes on several lines -/

theorem basicLines_escape {cs rest : List Char} {c : Char} (hends : endsLine cs = false)
    (h : escape? cs = some (c, rest)) :
    basicLines ('\\' :: cs) = (basicLines rest).map (consText c) := by
  rw [basicLines, if_neg (Bool.eq_false_iff.1 hends)]
  split
  · next h' => rw [h] at h'; cases h'
  · next h' =>
    rw [h] at h'
    cases h'
    rfl

theorem basicLines_plain {c : Char} (hplain : isPlain c = true) (noBackslash : c ≠ '\\')
    {cs : List Char} (hpair : c = '"' → NoPair '"' cs) :
    basicLines (c :: cs) = (basicLines cs).map (consText c) := by
  rw [basicLines.eq_8 c cs (fun _ hc => hpair hc _) (fun _ hc => hpair hc _)
    (fun _ hc => hpair hc _) (Chars.ne_of_test hplain (by decide))
    (fun _ hc => absurd hc (Chars.ne_of_test hplain (by decide))) noBackslash, if_pos hplain]

theorem basicLines_written {c : Char} {w : List Char} (h : Written true c w) (hc : c ≠ '"')
    (cs : List Char) : basicLines (w ++ cs) = (basicLines cs).map (consText c) := by
  cases h with
  | plain hplain noBackslash =>
    exact basicLines_plain hplain noBackslash fun h => absurd h hc
  | feed _ hfeed => rw [hfeed, List.singleton_append, basicLines]
  | escape stays denotes => exact basicLines_escape (stays cs) (denotes cs)

/-- Behind a mark that is part of it, a body begins with two marks only if it ends there. -/
theorem noPair_escapeFrom {run : Nat} (hrun : 0 < run) {cs : List Char} (hcs : cs ≠ [])
    (hlast : ¬ (run < 2 ∧ cs = ['"'])) (rest : List Char) :
    NoPair '"' (escapeFrom true run cs ++ rest) := by
  intro more hpair
  cases cs with
  | nil => exact hcs rfl
  | cons c cs =>
    obtain ⟨x, xs, hx, hhead⟩ := exists_cons_escapeFrom true run c cs
    rw [hx, List.cons_append, List.cons.injEq] at hpair
    obtain ⟨rfl, hpair⟩ := hpair
    rcases hhead with ⟨rfl, -, hmark⟩ | hbackslash
    · obtain ⟨-, hlt⟩ := hmark rfl
      obtain rfl : run = 1 := by omega
      cases cs with
      | nil => exact hlast ⟨hlt, rfl⟩
      | cons d cs =>
        -- two marks of the text are behind us, so a third one would be escaped
        obtain ⟨y, ys, hy, hsecond⟩ := exists_cons_escapeFrom true 2 d cs
        have hxs : xs = y :: ys := by
          rw [escapeFrom, if_pos rfl] at hx
          rw [← hy]
          exact (List.cons.inj hx).2.symm
        rw [hxs, List.cons_append, List.cons.injEq] at hpair
        obtain ⟨rfl, -⟩ := hpair
        rcases hsecond with ⟨rfl, -, hmark⟩ | hbackslash
        · exact absurd (hmark rfl).2 (by decide)
        · exact absurd hbackslash (by decide)
    · exact absurd hbackslash (by decide)

theorem basicLines_escapeFrom {rest : List Char} (hrest : NoMark '"' rest) (run : Nat)
    (cs : List Char) :
    basicLines (escapeFrom true run cs ++ '"' :: '"' :: '"' :: rest) = some (cs, rest) := by
  induction cs generalizing run with
  | nil => rw [escapeFrom, List.nil_append, basicLines.eq_4 rest (fun _ => hrest _) hrest]
  | cons c cs ih =>
    by_cases hc : c = '"'
    · subst hc
      rw [escapeFrom, if_pos rfl]
      split
      · next hraw =>
        -- one or two marks at the end of the text stand right before the closing ones
        by_cases hone : cs = []
        · subst hone
          exact basicLines.eq_3 rest hrest
        by_cases htwo : run + 1 < 2 ∧ cs = ['"']
        · obtain ⟨hrun, rfl⟩ := htwo
          have hbody : escapeFrom true (run + 1) ['"'] = ['"'] := by simp [escapeFrom, hrun]
          rw [hbody]
          exact basicLines.eq_2 rest
        have hpair := noPair_escapeFrom (Nat.succ_pos run) hone htwo ('"' :: '"' :: '"' :: rest)
        rw [List.cons_append, basicLines_plain (by decide) (by decide) fun _ => hpair, ih]
        rfl
      · have hescape : escape? ('"' :: (escapeFrom true 0 cs ++ '"' :: '"' :: '"' :: rest)) =
            some ('"', escapeFrom true 0 cs ++ '"' :: '"' :: '"' :: rest) := rfl
        rw [List.cons_append, List.cons_append, basicLines_escape rfl hescape, ih]
        rfl
    · rw [escapeFrom, if_neg hc, List.append_assoc,
        basicLines_written (written_escapeChar true c) hc, ih]
      rfl

/-! ## No escapes -/

theorem literal_append {cs : List Char} (h : ∀ c ∈ cs, isPlain c = true ∧ c ≠ '\'')
    (rest : List Char) : literal (cs ++ '\'' :: rest) = some (cs, rest) := by
  induction cs with
  | nil => rfl
  | cons c cs ih =>
    obtain ⟨hplain, hc⟩ := h c List.mem_cons_self
    rw [List.cons_append, literal.eq_3 c _ hc, if_pos hplain,
      ih fun x hx => h x (List.mem_cons_of_mem c hx)]
    rfl

theorem literalLines_plain {c : Char} (hplain : isPlain c = true) {cs : List Char}
    (hpair : c = '\'' → NoPair '\'' cs) :
    literalLines (c :: cs) = (literalLines cs).map (consText c) := by
  rw [literalLines.eq_7 c cs (fun _ hc => hpair hc _) (fun _ hc => hpair hc _)
    (fun _ hc => hpair hc _) (Chars.ne_of_test hplain (by decide))
    (fun _ hc => absurd hc (Chars.ne_of_test hplain (by decide))), if_pos hplain]

theorem le_longestRunFrom (q : Char) (run : Nat) (cs : List Char) :
    run ≤ longestRunFrom q run cs := by
  induction cs generalizing run with
  | nil => exact Nat.le_refl run
  | cons c cs ih =>
    rw [longestRunFrom]
    split
    · exact Nat.le_trans (Nat.le_succ run) (ih (run + 1))
    · exact Nat.le_max_left run _

/-- Behind a mark of its own, a text without three marks in a row begins with two marks only if it
ends there. -/
theorem noPair_of_longestRunFrom {run : Nat} (hrun : 0 < run) {cs : List Char}
    (hlongest : longestRunFrom '\'' run cs ≤ 2) (hnil : cs ≠ []) (hone : cs ≠ ['\''])
    (rest : List Char) : NoPair '\'' (cs ++ rest) := by
  intro more hpair
  match cs with
  | [] => exact hnil rfl
  | [c] =>
    rw [List.singleton_append, List.cons.injEq] at hpair
    exact hone (by rw [hpair.1])
  | c :: d :: cs =>
    simp only [List.cons_append, List.cons.injEq] at hpair
    obtain ⟨rfl, rfl, -⟩ := hpair
    rw [longestRunFrom, if_pos rfl, longestRunFrom, if_pos rfl] at hlongest
    have := le_longestRunFrom '\'' (run + 1 + 1) cs
    omega

theorem literalLines_append {rest : List Char} (hrest : NoMark '\'' rest) {cs : List Char}
    (hcs : ∀ c ∈ cs, isPlain c = true ∨ c = '\n') {run : Nat}
    (hlongest : longestRunFrom '\'' run cs ≤ 2) :
    literalLines (cs ++ '\'' :: '\'' :: '\'' :: rest) = some (cs, rest) := by
  induction cs generalizing run with
  | nil => rw [List.nil_append, literalLines.eq_4 rest (fun _ => hrest _) hrest]
  | cons c cs ih =>
    have ih := @ih fun x hx => hcs x (List.mem_cons_of_mem c hx)
    rw [longestRunFrom] at hlongest
    split at hlongest
    · next hc =>
      subst hc
      by_cases hnil : cs = []
      · subst hnil
        exact literalLines.eq_3 rest hrest
      by_cases hone : cs = ['\'']
      · subst hone
        exact literalLines.eq_2 rest
      have hpair := noPair_of_longestRunFrom (Nat.succ_pos run) hlongest hnil hone
        ('\'' :: '\'' :: '\'' :: rest)
      rw [List.cons_append, literalLines_plain (by decide) fun _ => hpair, ih hlongest]
      rfl
    · next hc =>
      have ih := ih (Nat.le_trans (Nat.le_max_right _ _) hlongest)
      rcases hcs c List.mem_cons_self with hplain | rfl
      · rw [List.cons_append, literalLines_plain hplain fun h => absurd h hc, ih]
        rfl
      · rw [List.cons_append, literalLines, ih]
        rfl

/-! ## Marks -/

theorem dropBreak_lead {cs body : List Char}
    (h : '\n' ∉ cs → NoMark '\n' body ∧ NoMark '\r' body) : dropBreak (lead cs ++ body) = body := by
  unfold lead
  split
  · rfl
  · next hfeed =>
    obtain ⟨hn, hr⟩ := h (by simpa using hfeed)
    have hbreak : break? body = none := by
      unfold break?
      split
      · exact absurd rfl (hn _)
      · exact absurd rfl (hr _)
      · rfl
    rw [List.nil_append, dropBreak, hbreak, Option.getD_none]

theorem read_basic (cs : List Char) {rest : List Char} (hrest : NoMark '"' rest) :
    read (Form.basic.write cs ++ rest) = some (cs, rest) := by
  have hwrite : Form.basic.write cs ++ rest = '"' :: (escapeFrom false 0 cs ++ '"' :: rest) := by
    simp [Form.write]
  have hpair : NoPair '"' (escapeFrom false 0 cs ++ '"' :: rest) := by
    intro more h
    cases cs with
    | nil => exact hrest more (List.cons.inj h).2
    | cons c cs =>
      obtain ⟨x, xs, hx, hhead⟩ := exists_cons_escapeFrom false 0 c cs
      rw [hx, List.cons_append, List.cons.injEq] at h
      obtain ⟨rfl, -⟩ := h
      rcases hhead with ⟨rfl, -, hmark⟩ | hbackslash
      · exact absurd (hmark rfl).1 (by decide)
      · exact absurd hbackslash (by decide)
  rw [hwrite, read.eq_3]
  · exact basic_escapeFrom 0 cs rest
  · exact fun more h => hpair more (List.cons.inj h).2
  · exact fun more h => absurd (List.cons.inj h).1 (by decide)

theorem read_basicLines (cs : List Char) {rest : List Char} (hrest : NoMark '"' rest) :
    read (Form.basicLines.write cs ++ rest) = some (cs, rest) := by
  have hwrite : Form.basicLines.write cs ++ rest = '"' :: '"' :: '"' ::
      (lead cs ++ (escapeFrom true 0 cs ++ '"' :: '"' :: '"' :: rest)) := by
    simp [Form.write]
  -- a line break at the front of the body would be dropped as the one behind the marks
  have hbody : ∀ q, q ≠ '"' → q ≠ '\\' → isPlain q = false → (q = '\n' → '\n' ∉ cs) →
      NoMark q (escapeFrom true 0 cs ++ '"' :: '"' :: '"' :: rest) := by
    intro q hquote hbackslash hplain hfeed more h
    cases cs with
    | nil => exact hquote (List.cons.inj h).1.symm
    | cons c cs =>
      obtain ⟨x, xs, hx, hhead⟩ := exists_cons_escapeFrom true 0 c cs
      rw [hx, List.cons_append, List.cons.injEq] at h
      obtain ⟨rfl, -⟩ := h
      rcases hhead with ⟨rfl, hc | hc, -⟩ | hx
      · rw [hplain] at hc
        cases hc
      · exact hfeed hc (by rw [hc]; exact List.mem_cons_self)
      · exact hbackslash hx
  rw [hwrite, read, dropBreak_lead]
  · exact basicLines_escapeFrom hrest 0 cs
  · intro hfeed
    exact ⟨hbody '\n' (by decide) (by decide) (by decide) fun _ => hfeed,
      hbody '\r' (by decide) (by decide) (by decide) fun h => absurd h (by decide)⟩

theorem read_literal {cs : List Char} (hcs : ∀ c ∈ cs, isPlain c = true ∧ c ≠ '\'')
    {rest : List Char} (hrest : NoMark '\'' rest) :
    read (Form.literal.write cs ++ rest) = some (cs, rest) := by
  have hwrite : Form.literal.write cs ++ rest = '\'' :: (cs ++ '\'' :: rest) := by
    simp [Form.write]
  have hpair : NoPair '\'' (cs ++ '\'' :: rest) := by
    intro more h
    cases cs with
    | nil => exact hrest more (List.cons.inj h).2
    | cons c cs => exact (hcs c List.mem_cons_self).2 (List.cons.inj h).1
  rw [hwrite, read.eq_3]
  · exact literal_append hcs rest
  · exact fun more h => absurd (List.cons.inj h).1 (by decide)
  · exact fun more h => hpair more (List.cons.inj h).2

theorem read_literalLines {cs : List Char} (hcs : ∀ c ∈ cs, isPlain c = true ∨ c = '\n')
    (hlongest : longestRun '\'' cs ≤ 2) {rest : List Char} (hrest : NoMark '\'' rest) :
    read (Form.literalLines.write cs ++ rest) = some (cs, rest) := by
  have hwrite : Form.literalLines.write cs ++ rest = '\'' :: '\'' :: '\'' ::
      (lead cs ++ (cs ++ '\'' :: '\'' :: '\'' :: rest)) := by
    simp [Form.write]
  have hbody : ∀ q, q ≠ '\'' → isPlain q = false → (q = '\n' → '\n' ∉ cs) →
      NoMark q (cs ++ '\'' :: '\'' :: '\'' :: rest) := by
    intro q hquote hplain hfeed more h
    cases cs with
    | nil => exact hquote (List.cons.inj h).1.symm
    | cons c cs =>
      obtain rfl : c = q := (List.cons.inj h).1
      rcases hcs c List.mem_cons_self with hc | hc
      · rw [hplain] at hc
        cases hc
      · exact hfeed hc (by rw [hc]; exact List.mem_cons_self)
  rw [hwrite, read, dropBreak_lead]
  · exact literalLines_append hrest hcs hlongest
  · intro hfeed
    exact ⟨hbody '\n' (by decide) (by decide) fun _ => hfeed,
      hbody '\r' (by decide) (by decide) fun h => absurd h (by decide)⟩

/-! ## The form of a text -/

theorem isPlain_of_no_control {cs : List Char} (h : cs.any isControl = false) :
    ∀ c ∈ cs, isPlain c = true ∨ c = '\n' := by
  intro c hc
  have hcontrol : isControl c = false := by
    have := List.any_eq_false.1 h c hc
    exact Bool.eq_false_iff.2 this
  cases hplain : isPlain c with
  | true => exact .inl rfl
  | false => exact .inr (by simpa [isControl, hplain] using hcontrol)

/-- A text that is written without escapes on one line needs none and has one line. -/
theorem Form.plain_of_ofText_literal {cs : List Char} (h : Form.ofText cs = .literal) :
    ∀ c ∈ cs, isPlain c = true ∧ c ≠ '\'' := by
  unfold Form.ofText at h
  split at h
  · split at h <;> cases h
  next hcontrol =>
  split at h
  · cases h
  split at h
  · next hmarks =>
    simp only [Bool.and_eq_true, Bool.not_eq_true', List.contains_eq_mem, decide_eq_false_iff_not]
      at hmarks
    intro c hc
    rcases isPlain_of_no_control (Bool.eq_false_iff.2 hcontrol) c hc with hplain | rfl
    · exact ⟨hplain, fun h => hmarks.1 (h ▸ hc)⟩
    · exact absurd hc hmarks.2
  · repeat' split at h
    all_goals cases h

/-- A text that is written without escapes on several lines needs none and has no three apostrophes
in a row. -/
theorem Form.plain_of_ofText_literalLines {cs : List Char} (h : Form.ofText cs = .literalLines) :
    (∀ c ∈ cs, isPlain c = true ∨ c = '\n') ∧ longestRun '\'' cs ≤ 2 := by
  unfold Form.ofText at h
  split at h
  · split at h <;> cases h
  next hcontrol =>
  refine ⟨isPlain_of_no_control (Bool.eq_false_iff.2 hcontrol), ?_⟩
  split at h
  · cases h
  split at h
  · cases h
  split at h
  · cases h
  split at h
  · assumption
  · split at h <;> cases h

/-- A form without escapes suits the texts that need none and do not hold its closing mark; the
other forms suit every text. -/
def Form.Suits (cs : List Char) : Form → Prop
  | .basic | .basicLines => True
  | .literal => ∀ c ∈ cs, isPlain c = true ∧ c ≠ '\''
  | .literalLines => (∀ c ∈ cs, isPlain c = true ∨ c = '\n') ∧ longestRun '\'' cs ≤ 2

theorem Form.suits_ofText (cs : List Char) : (Form.ofText cs).Suits cs := by
  cases hform : Form.ofText cs with
  | basic => trivial
  | literal => exact plain_of_ofText_literal hform
  | basicLines => trivial
  | literalLines => exact plain_of_ofText_literalLines hform

/-- A text reads back from any form that suits it, and what stands behind it is left. -/
theorem read_form {form : Form} {cs : List Char} (h : form.Suits cs) {rest : List Char}
    (hquote : NoMark '"' rest) (hapostrophe : NoMark '\'' rest) :
    read (form.write cs ++ rest) = some (cs, rest) := by
  cases form with
  | basic => exact read_basic cs hquote
  | literal => exact read_literal h hapostrophe
  | basicLines => exact read_basicLines cs hquote
  | literalLines => exact read_literalLines h.1 h.2 hapostrophe

end NodeHealth.Toml.Quoted
