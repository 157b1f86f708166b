import NodeHealth.Text.Numeral
import NodeHealth.Text.Blank
import NodeHealth.Proofs.Text.Separated

/-!
# Written numbers

`Denotes` is the grammar of unsigned numerals with the number that each stands for.

* `below?_eq_some_iff`, `word32?_eq_some_iff`: reading accepts what the grammar does, up to a bound.
* `word32?_digits`: the count that written digits denote is the number that was written.
-/

namespace NodeHealth.Numeral

/-! ## The grammar -/

/-- What an unsigned numeral denotes: the value of one or more digits, before which a `+` may
stand. -/
def Denotes (cs : List Char) (n : Nat) : Prop :=
  ∃ ds, (cs = ds ∨ cs = '+' :: ds) ∧ ds ≠ [] ∧ (∀ c ∈ ds, c.isDigit = true) ∧
    Nat.ofDigitChars 10 ds 0 = n

theorem Denotes.isDigit_getLast {cs : List Char} {n : Nat} (h : Denotes cs n) :
    ∀ c ∈ cs.getLast?, c.isDigit = true := by
  obtain ⟨ds, hcs, hne, hdigits, -⟩ := h
  have hlast : cs.getLast? = ds.getLast? := by
    rcases hcs with rfl | rfl
    · rfl
    · rw [List.getLast?_cons_of_ne_nil hne]
  rw [hlast]
  exact fun c hc => hdigits c (List.mem_of_getLast? hc)

/-- A numeral is made of digits and a `+`. -/
theorem Denotes.forall_mem {cs : List Char} {n : Nat} (h : Denotes cs n) {p : Char → Prop}
    (hplus : p '+') (hdigit : ∀ c, c.isDigit = true → p c) : ∀ c ∈ cs, p c := by
  obtain ⟨ds, rfl | rfl, -, hdigits, -⟩ := h
  · exact fun c hc => hdigit c (hdigits c hc)
  · exact List.forall_mem_cons.2 ⟨hplus, fun c hc => hdigit c (hdigits c hc)⟩

theorem Denotes.ne_nil {cs : List Char} {n : Nat} (h : Denotes cs n) : cs ≠ [] := by
  obtain ⟨ds, rfl | rfl, hne, -⟩ := h
  · exact hne
  · exact List.cons_ne_nil _ _

theorem ofDigits?_eq_some_iff {ds : List Char} {n : Nat} :
    ofDigits? ds = some n ↔
      ds ≠ [] ∧ (∀ c ∈ ds, c.isDigit = true) ∧ Nat.ofDigitChars 10 ds 0 = n := by
  simp [ofDigits?, and_assoc]

theorem unsigned?_of_head_ne {cs : List Char} (h : cs.head? ≠ some '+') :
    unsigned? cs = ofDigits? cs := by
  unfold unsigned?
  split
  · exact absurd rfl h
  · rfl

theorem unsigned?_eq_some_iff {cs : List Char} {n : Nat} :
    unsigned? cs = some n ↔ Denotes cs n := by
  constructor
  · intro h
    unfold unsigned? at h
    split at h
    · next ds => exact ⟨ds, .inr rfl, ofDigits?_eq_some_iff.1 h⟩
    · exact ⟨cs, .inl rfl, ofDigits?_eq_some_iff.1 h⟩
  · rintro ⟨ds, rfl | rfl, hds⟩
    · have hplus : cs.head? ≠ some '+' := by
        intro hhead
        exact absurd (hds.2.1 '+' (List.mem_of_head? hhead)) (by decide)
      rw [unsigned?_of_head_ne hplus, ofDigits?_eq_some_iff]
      exact hds
    · exact ofDigits?_eq_some_iff.2 hds

theorem Denotes.unique {cs : List Char} {n m : Nat} (h : Denotes cs n) (h' : Denotes cs m) :
    n = m := by
  have hn := unsigned?_eq_some_iff.2 h
  rwa [unsigned?_eq_some_iff.2 h', Option.some.injEq, eq_comm] at hn

theorem below?_eq_some_iff {bound n : Nat} {s : String} :
    below? bound s = some n ↔ Denotes s.toList n ∧ n < bound := by
  rw [below?, Option.filter_eq_some_iff, unsigned?_eq_some_iff, decide_eq_true_iff]

theorem word32?_eq_some_iff {s : String} {n : UInt32} :
    word32? s = some n ↔ Denotes s.toList n.toNat := by
  rw [word32?, Option.map_eq_some_iff]
  constructor
  · rintro ⟨m, hm, rfl⟩
    obtain ⟨hdenotes, hlt⟩ := below?_eq_some_iff.1 hm
    rwa [UInt32.toNat_ofNat_of_lt' hlt]
  · intro h
    exact ⟨n.toNat, below?_eq_some_iff.2 ⟨h, n.toNat_lt⟩, UInt32.ofNat_toNat⟩

/-- A text is no 32-bit count if it is no numeral or one of a number that is too great. -/
theorem word32?_eq_none_iff {s : String} :
    word32? s = none ↔ ¬ ∃ n < UInt32.size, Denotes s.toList n := by
  rw [word32?, Option.map_eq_none_iff, Option.eq_none_iff_forall_ne_some, not_exists]
  refine forall_congr' fun n => ?_
  rw [ne_eq, below?_eq_some_iff, and_comm]

/-! ## Written numbers -/

@[simp] theorem toList_digits (n : Nat) : (digits n).toList = Nat.toDigits 10 n :=
  String.toList_ofList

theorem isBlank_of_isDigit {c : Char} (h : c.isDigit = true) : Text.isBlank c = false := by
  have h0 : 48 ≤ c.toNat := (Char.isDigit_iff_toNat.1 h).1
  have h9 : c.toNat ≤ 57 := (Char.isDigit_iff_toNat.1 h).2
  simp only [Text.isBlank, Bool.or_eq_false_iff, Bool.and_eq_false_iff, decide_eq_false_iff_not,
    beq_eq_false_iff_ne]
  omega

theorem unsigned?_digits (n : Nat) : unsigned? (digits n).toList = some n := by
  have hdigits : ofDigits? (digits n).toList = some n := by rw [toList_digits, ofDigits?_toDigits]
  exact unsigned?_eq_some_iff.2 ⟨_, .inl rfl, ofDigits?_eq_some_iff.1 hdigits⟩

/-- A written count reads back. -/
theorem word32?_digits (n : UInt32) : word32? (digits n.toNat) = some n :=
  word32?_eq_some_iff.2 (unsigned?_eq_some_iff.1 (unsigned?_digits n.toNat))

end NodeHealth.Numeral
