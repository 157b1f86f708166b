import NodeHealth.Json.Quoted

/-!
# Written strings read back

A character is written within a string in one of three ways (`Escaped`), and each of the readers
undoes it.

* `span?_escape`: the body that is written for a text ends at the quote behind it.
* `unescape?_escape`: it stands for the text.
* `le_toNat_of_mem_escape`: it holds no control character, so it is all on one line.
-/

namespace NodeHealth.Json

/-- The ways to write a character within a string. -/
inductive Escaped (c : Char) : List Char → Prop
  | short {e : Char} (denotes : shortEscape? e = some c) : Escaped c ['\\', e]
  | control (low : c.toNat < 0x20) : Escaped c ('\\' :: 'u' :: Hex.fixed Hex.lowerDigit 4 c.toNat)
  | plain (noBackslash : c ≠ '\\') (high : 0x20 ≤ c.toNat) (noQuote : c ≠ '"') : Escaped c [c]

theorem escaped_escapeChar (c : Char) : Escaped c (escapeChar c) := by
  unfold escapeChar
  iterate 7
    split
    · next h => exact .short (by rw [h]; rfl)
  split
  · next low => exact .control low
  · next noQuote noBackslash _ _ _ _ _ high =>
    exact .plain noBackslash (Nat.le_of_not_lt high) noQuote

/-- The digits of a control character denote it. -/
theorem value?_digits {c : Char} (low : c.toNat < 0x20) :
    Hex.value? (Hex.fixed Hex.lowerDigit 4 c.toNat) = some c.toNat :=
  Hex.value?_fixed Hex.digit?_lowerDigit 4 c.toNat (Nat.lt_trans low (by decide))

theorem ne_u_of_shortEscape? {e c : Char} (h : shortEscape? e = some c) : e ≠ 'u' := by
  rintro rfl
  cases h

/-! ## One character -/

theorem span?_escapeChar (c : Char) (cs : List Char) :
    span? (escapeChar c ++ cs) =
      (span? cs).map fun (body, rest) => (escapeChar c ++ body, rest) := by
  have h := escaped_escapeChar c
  generalize escapeChar c = written at h
  cases h with
  | short denotes =>
    have hu := ne_u_of_shortEscape? denotes
    simp [span?, denotes, hu]
  | control low =>
    have hv := value?_digits low
    simp only [Hex.fixed, List.nil_append, List.cons_append] at hv ⊢
    simp [span?, hv]
  | plain noBackslash high =>
    have hlow : ¬ c.toNat < 0x20 := Nat.not_lt.2 high
    simp [span?, noBackslash, hlow]

theorem unescape?_escapeChar (c : Char) (cs : List Char) :
    unescape? (escapeChar c ++ cs) = (unescape? cs).map (c :: ·) := by
  have h := escaped_escapeChar c
  generalize escapeChar c = written at h
  cases h with
  | short denotes =>
    have hu := ne_u_of_shortEscape? denotes
    simp [unescape?, denotes, hu]
  | control low =>
    have hv := value?_digits low
    have hsurrogate : ¬ (0xD800 ≤ c.toNat ∧ c.toNat < 0xDC00) := by omega
    simp only [Hex.fixed, List.nil_append, List.cons_append] at hv ⊢
    simp [unescape?, hv, hsurrogate, Hex.scalar?_toNat]
  | plain noBackslash =>
    simp [unescape?, noBackslash]

theorem le_toNat_lowerDigit : ∀ d < 16, 0x20 ≤ (Hex.lowerDigit d).toNat := by decide

theorem le_toNat_of_shortEscape? {e c : Char} (h : shortEscape? e = some c) : 0x20 ≤ e.toNat := by
  unfold shortEscape? at h
  split at h
  case h_9 => cases h
  all_goals decide

theorem le_toNat_of_mem_escapeChar {c x : Char} (hx : x ∈ escapeChar c) : 0x20 ≤ x.toNat := by
  have h := escaped_escapeChar c
  generalize escapeChar c = written at h hx
  cases h with
  | short denotes =>
    simp only [List.mem_cons, List.not_mem_nil, or_false] at hx
    rcases hx with rfl | rfl
    · decide
    · exact le_toNat_of_shortEscape? denotes
  | control low =>
    simp only [Hex.fixed, List.nil_append, List.cons_append, List.mem_cons, List.not_mem_nil,
      or_false] at hx
    have hdigit : ∀ n, 0x20 ≤ (Hex.lowerDigit (n % 16)).toNat := fun n =>
      le_toNat_lowerDigit _ (Nat.mod_lt n (by decide))
    rcases hx with rfl | rfl | rfl | rfl | rfl | rfl
    · decide
    · decide
    all_goals exact hdigit _
  | plain _ high =>
    rw [List.mem_singleton.1 hx]
    exact high

/-! ## Whole texts -/

theorem span?_escape (cs rest : List Char) :
    span? (escape cs ++ '"' :: rest) = some (escape cs, rest) := by
  induction cs with
  | nil => rfl
  | cons c cs ih =>
    rw [escape, List.flatMap_cons, List.append_assoc, span?_escapeChar, ← escape, ih]
    rfl

theorem unescape?_escape (cs : List Char) : unescape? (escape cs) = some cs := by
  induction cs with
  | nil => rfl
  | cons c cs ih =>
    rw [escape, List.flatMap_cons, unescape?_escapeChar, ← escape, ih]
    rfl

theorem le_toNat_of_mem_escape {cs : List Char} {x : Char} (hx : x ∈ escape cs) :
    0x20 ≤ x.toNat := by
  obtain ⟨c, -, hx⟩ := List.mem_flatMap.1 hx
  exact le_toNat_of_mem_escapeChar hx

end NodeHealth.Json
