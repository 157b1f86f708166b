import Mathlib.Data.List.Infix
import NodeHealth.Proofs.Mount.Escape

/-!
# Every field is read to its end

A field is read in turns: a turn takes the four bytes of an escape, or one byte. `turn?` looks at
them by their positions and has no result if there is no byte at one of these. This never happens,
and the last turn ends just where the field does.

* `exists_turn?`: a turn at any byte of a field has a result and takes one byte at least.
* `turns_unescapeBytes`: turn by turn, a field gives the bytes that `unescapeBytes` gives.
* `unescape_of_no_escape`: a field without escapes is read as it stands.
* `unescape_field`: these, and that reading gives the text that a field spells.
-/

namespace NodeHealth.Mount

/-! ## Reading in turns -/

/-- The turn that begins at a position: the byte that it gives and the position of the next turn.
There is no result if it looks at a position without a byte. -/
def turn? (bs : Bytes) (i : Nat) : Option (UInt8 × Nat) := do
  let first ← bs[i]?
  if first = 0x5C ∧ i + 3 < bs.length then
    match octalByte? (← bs[i + 1]?) (← bs[i + 2]?) (← bs[i + 3]?) with
    | some byte => some (byte, i + 4)
    | none => some (first, i + 1)
  else some (first, i + 1)

/-- Turns from a position on give the bytes and end where the field does. -/
inductive Turns (bs : Bytes) : Nat → Bytes → Prop
  | done : Turns bs bs.length []
  | turn {i j : Nat} {byte : UInt8} {out : Bytes} : turn? bs i = some (byte, j) →
      Turns bs j out → Turns bs i (byte :: out)

theorem turn?_of_opens {bs rest : Bytes} {byte : UInt8} (h : Opens bs byte rest) (front : Bytes) :
    turn? (front ++ bs) front.length = some (byte, front.length + 4) := by
  obtain ⟨a, b, c, rfl, hbyte⟩ := h
  simp [turn?, hbyte]

theorem turn?_of_not_opens {bs : Bytes} {b : UInt8}
    (h : ∀ byte rest, ¬ Opens (b :: bs) byte rest) (front : Bytes) :
    turn? (front ++ b :: bs) front.length = some (b, front.length + 1) := by
  by_cases hlook : b = 0x5C ∧ front.length + 3 < (front ++ b :: bs).length
  · -- three bytes stand behind a backslash, but they are no escape with it
    obtain ⟨rfl, hlength⟩ := hlook
    obtain ⟨x, y, z, rest, rfl⟩ : ∃ x y z rest, bs = x :: y :: z :: rest := by
      match bs with
      | x :: y :: z :: rest => exact ⟨x, y, z, rest, rfl⟩
      | [] | [_] | [_, _] => simp at hlength
    have hnone : octalByte? x y z = none :=
      Option.eq_none_iff_forall_ne_some.2 fun byte hbyte => h byte rest ⟨x, y, z, rfl, hbyte⟩
    simp [turn?, hnone]
  · have hfirst : (front ++ b :: bs)[front.length]? = some b := by simp
    rw [turn?, hfirst]
    exact if_neg hlook

/-- A turn takes the bytes of an escape or a single byte, wherever it begins, and gives the first of
the bytes that reading the field from there on gives. -/
theorem exists_taken {bs : Bytes} (h : bs ≠ []) :
    ∃ taken byte rest, taken ≠ [] ∧ bs = taken ++ rest ∧
      unescapeBytes bs = byte :: unescapeBytes rest ∧
      ∀ front, turn? (front ++ bs) front.length = some (byte, (front ++ taken).length) := by
  obtain ⟨b, bs, rfl⟩ := List.exists_cons_of_ne_nil h
  by_cases hopens : ∃ byte rest, Opens (b :: bs) byte rest
  · obtain ⟨byte, rest, hopens⟩ := hopens
    have ⟨x, y, z, heq, _⟩ := hopens
    refine ⟨[0x5C, x, y, z], byte, rest, by simp, heq, unescapeBytes_of_opens hopens, ?_⟩
    intro front
    rw [turn?_of_opens hopens, List.length_append]
    rfl
  · have hnone : ∀ byte rest, ¬ Opens (b :: bs) byte rest :=
      fun byte rest hbyte => hopens ⟨byte, rest, hbyte⟩
    refine ⟨[b], b, bs, by simp, rfl, unescapeBytes_of_not_opens hnone, ?_⟩
    intro front
    rw [turn?_of_not_opens hnone, List.length_append]
    rfl

/-- A turn at any byte of a field has a result, and the next one begins behind this byte and not
behind the end of the field. -/
theorem exists_turn? {bs : Bytes} {i : Nat} (h : i < bs.length) :
    ∃ byte j, turn? bs i = some (byte, j) ∧ i < j ∧ j ≤ bs.length := by
  obtain ⟨taken, byte, rest, hne, hdrop, -, hturn⟩ :=
    exists_taken (List.ne_nil_of_length_pos (l := bs.drop i) (by rw [List.length_drop]; omega))
  have hlength : (bs.take i).length = i := List.length_take_of_le (Nat.le_of_lt h)
  have hpos : 0 < taken.length := List.length_pos_iff.2 hne
  have hbs : bs.length = i + taken.length + rest.length := by
    rw [← List.take_append_drop i bs, hdrop, List.length_append, List.length_append, hlength]
    omega
  have hresult := hturn (bs.take i)
  rw [List.take_append_drop, List.length_append, hlength] at hresult
  exact ⟨byte, _, hresult, by omega, by omega⟩

/-- Turn by turn, a field gives the bytes that reading its escapes gives. -/
theorem turns_unescapeBytes (front bs : Bytes) :
    Turns (front ++ bs) front.length (unescapeBytes bs) := by
  induction hn : bs.length using Nat.strongRecOn generalizing front bs with
  | ind n ih =>
    by_cases hbs : bs = []
    · subst hbs
      rw [List.append_nil]
      exact .done
    · obtain ⟨taken, byte, rest, hne, rfl, hread, hturn⟩ := exists_taken hbs
      have hpos : 0 < taken.length := List.length_pos_iff.2 hne
      have hshorter : rest.length < n := by
        rw [← hn, List.length_append]
        omega
      have hrest := ih rest.length hshorter (front ++ taken) rest rfl
      rw [List.append_assoc] at hrest
      rw [hread]
      exact .turn (hturn front) hrest

/-! ## Fields without escapes -/

/-- Somewhere in the text a backslash stands before three octal digits that denote a byte. -/
def HoldsEscape (cs : List Char) : Prop :=
  ∃ x < 8, ∃ y < 8, ∃ z < 8, x * 64 + y * 8 + z ≤ 0o377 ∧
    ['\\', octalDigit x, octalDigit y, octalDigit z] <:+: cs

instance (cs : List Char) : Decidable (HoldsEscape cs) :=
  inferInstanceAs (Decidable (∃ x < 8, ∃ y < 8, ∃ z < 8, x * 64 + y * 8 + z ≤ 0o377 ∧
    ['\\', octalDigit x, octalDigit y, octalDigit z] <:+: cs))

theorem octalDigit?_eq_some {b : UInt8} {n : Nat} (h : octalDigit? b = some n) :
    n < 8 ∧ b = UInt8.ofNat (0x30 + n) := by
  unfold octalDigit? at h
  split at h
  · next hb =>
    cases h
    rw [Bool.and_eq_true, decide_eq_true_iff, decide_eq_true_iff] at hb
    have hlow : 0x30 ≤ b.toNat := UInt8.le_iff_toNat_le.1 hb.1
    have hhigh : b.toNat ≤ 0x37 := UInt8.le_iff_toNat_le.1 hb.2
    refine ⟨by omega, ?_⟩
    rw [Nat.add_sub_cancel' hlow, UInt8.ofNat_toNat]
  · cases h

theorem octalByte?_eq_some {a b c byte : UInt8} (h : octalByte? a b c = some byte) :
    ∃ x < 8, ∃ y < 8, ∃ z < 8, x * 64 + y * 8 + z ≤ 0o377 ∧ a = UInt8.ofNat (0x30 + x) ∧
      b = UInt8.ofNat (0x30 + y) ∧ c = UInt8.ofNat (0x30 + z) := by
  obtain ⟨x, hx, h⟩ := Option.bind_eq_some_iff.1 h
  obtain ⟨y, hy, h⟩ := Option.bind_eq_some_iff.1 h
  obtain ⟨z, hz, h⟩ := Option.bind_eq_some_iff.1 h
  obtain ⟨hx8, ha⟩ := octalDigit?_eq_some hx
  obtain ⟨hy8, hb⟩ := octalDigit?_eq_some hy
  obtain ⟨hz8, hc⟩ := octalDigit?_eq_some hz
  refine ⟨x, hx8, y, hy8, z, hz8, ?_, ha, hb, hc⟩
  by_contra hvalue
  rw [if_neg hvalue] at h
  cases h

/-- The byte of an octal digit is that digit: a byte below 0x80 is a character of its own. -/
theorem exists_cons_of_encode {x : Nat} (hx : x < 8) {cs : List Char} {bs : Bytes}
    (h : cs.flatMap String.utf8EncodeChar = UInt8.ofNat (0x30 + x) :: bs) :
    ∃ cs', cs = octalDigit x :: cs' ∧ cs'.flatMap String.utf8EncodeChar = bs := by
  have hscan := Utf8.scan_encodeChars cs []
  rw [List.append_nil, h, Utf8.scan_one (by omega), Utf8.scan, List.append_nil] at hscan
  obtain ⟨c, cs', rfl, hc, -⟩ := List.map_eq_cons_iff.1 hscan.symm
  cases hc
  refine ⟨cs', rfl, ?_⟩
  have hdigit := utf8EncodeChar_octalDigit x hx
  unfold octalDigit at hdigit
  rw [List.flatMap_cons, hdigit] at h
  exact (List.cons.inj h).2

theorem unescapeBytes_of_no_escape {cs : List Char} (h : ¬ HoldsEscape cs) :
    unescapeBytes (cs.flatMap String.utf8EncodeChar) = cs.flatMap String.utf8EncodeChar := by
  induction cs with
  | nil => rfl
  | cons c cs ih =>
    have htail : ¬ HoldsEscape cs := by
      rintro ⟨x, hx, y, hy, z, hz, hvalue, hinfix⟩
      exact h ⟨x, hx, y, hy, z, hz, hvalue, List.infix_cons hinfix⟩
    rw [List.flatMap_cons]
    by_cases hc : c = '\\'
    · subst hc
      have hbackslash : String.utf8EncodeChar '\\' = [0x5C] := by decide
      rw [hbackslash, List.singleton_append, unescapeBytes_of_not_opens, ih htail]
      rintro byte rest ⟨x', y', z', heq, hbyte⟩
      obtain ⟨x, hx, y, hy, z, hz, hvalue, rfl, rfl, rfl⟩ := octalByte?_eq_some hbyte
      obtain ⟨cs₁, rfl, h₁⟩ := exists_cons_of_encode hx (List.cons.inj heq).2
      obtain ⟨cs₂, rfl, h₂⟩ := exists_cons_of_encode hy h₁
      obtain ⟨cs₃, rfl, -⟩ := exists_cons_of_encode hz h₂
      exact h ⟨x, hx, y, hy, z, hz, hvalue, (List.prefix_append _ cs₃).isInfix⟩
    · rw [unescapeBytes_append (backslash_notMem_encode hc), ih htail]

/-- A field without escapes is read as it stands. -/
theorem unescape_of_no_escape {field : String} (h : ¬ HoldsEscape field.toList) :
    unescape field = field := by
  rw [unescape, Utf8.encode, unescapeBytes_of_no_escape h]
  exact Utf8.lossy_encode field

/-- A field is read as the text that it spells, whatever is escaped in it, and as it stands if there
is no escape. Reading looks at nothing but the bytes of the field: a turn at any of them has a
result and takes one byte at least, and turn after turn ends where the field does. -/
theorem unescape_field (field : String) :
    (∀ text : String, Spelled field.toList text.toList → unescape field = text) ∧
    (¬ HoldsEscape field.toList → unescape field = field) ∧
    (∀ i < (Utf8.encode field).length,
      ∃ byte j, turn? (Utf8.encode field) i = some (byte, j) ∧ i < j ∧
        j ≤ (Utf8.encode field).length) ∧
    ∃ out, Turns (Utf8.encode field) 0 out ∧ unescape field = Utf8.lossy out :=
  ⟨fun _ h => unescape_of_spelled h, unescape_of_no_escape, fun _ h => exists_turn? h,
    unescapeBytes (Utf8.encode field), turns_unescapeBytes [] _, rfl⟩

/-- An escaped backslash before digits, and a character once escaped and once not. -/
def mixedField : String := "a\\134040\\303\\251é"

/-- Backslashes before too great a number and too close to the end. -/
def plainField : String := "\\400\\777\\04"

theorem unescape_field_mixedField :
    Spelled mixedField.toList "a\\040éé".toList ∧ unescape mixedField = "a\\040éé" ∧
    ¬ HoldsEscape plainField.toList ∧ unescape plainField = plainField ∧
    8 < (Utf8.encode plainField).length ∧
    ∃ byte j, turn? (Utf8.encode plainField) 8 = some (byte, j) ∧ 8 < j ∧
      j ≤ (Utf8.encode plainField).length := by
  have hfield : mixedField.toList =
      'a' :: (octal '\\' ++ '0' :: '4' :: '0' :: (octal 'é' ++ ['é'])) := by decide +kernel
  have hspelled : Spelled mixedField.toList "a\\040éé".toList := by
    rw [hfield]
    exact .plain (by decide) (.octal (.plain (by decide) (.plain (by decide) (.plain (by decide)
      (.octal (.plain (by decide) .nil))))))
  have hplain : ¬ HoldsEscape plainField.toList := by decide +kernel
  have hlength : 8 < (Utf8.encode plainField).length := by decide +kernel
  exact ⟨hspelled, (unescape_field mixedField).1 _ hspelled, hplain,
    (unescape_field plainField).2.1 hplain, hlength, (unescape_field plainField).2.2.1 8 hlength⟩

end NodeHealth.Mount
