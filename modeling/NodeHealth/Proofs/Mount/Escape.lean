import NodeHealth.Mount.Escape
import NodeHealth.Proofs.Text.Utf8

/-!
# Escaped texts read back

`Spelled field text` says that a field spells a text: each character of the text stands in the field
as it is, unless it is a backslash, or has all its bytes escaped. Which characters are escaped is
left open, so this covers every writer of escapes.

* `unescape_of_spelled`: reading the escapes of a field gives the text that it spells.
* `escape`: the writer of the kernel, which escapes the two blanks and the line feed that would
  disturb a table, and the backslash.
* `unescape_escape`: reading undoes this writer.
-/

namespace NodeHealth.Mount

/-! ## Writing -/

/-- The octal digit of a value. -/
def octalDigit (n : Nat) : Char := Char.ofNat (0x30 + n)

/-- The escape of a byte. -/
def escapeByte (b : UInt8) : List Char :=
  ['\\', octalDigit (b.toNat / 64), octalDigit (b.toNat / 8 % 8), octalDigit (b.toNat % 8)]

/-- The escapes of all bytes of a character. -/
def octal (c : Char) : List Char := (String.utf8EncodeChar c).flatMap escapeByte

/-- The field spells the text. -/
inductive Spelled : (field text : List Char) → Prop
  | nil : Spelled [] []
  | plain {c : Char} {field text : List Char} : c ≠ '\\' → Spelled field text →
      Spelled (c :: field) (c :: text)
  | octal {c : Char} {field text : List Char} : Spelled field text →
      Spelled (octal c ++ field) (c :: text)

/-! ## Reading one escape -/

/-- The bytes begin with an escape of the byte, and the rest stands behind it. -/
def Opens (bs : Bytes) (byte : UInt8) (rest : Bytes) : Prop :=
  ∃ a b c, bs = 0x5C :: a :: b :: c :: rest ∧ octalByte? a b c = some byte

theorem unescapeBytes_of_opens {bs rest : Bytes} {byte : UInt8} (h : Opens bs byte rest) :
    unescapeBytes bs = byte :: unescapeBytes rest := by
  obtain ⟨a, b, c, rfl, hbyte⟩ := h
  rw [unescapeBytes, hbyte]

theorem unescapeBytes_of_not_opens {b : UInt8} {bs : Bytes}
    (h : ∀ byte rest, ¬ Opens (b :: bs) byte rest) :
    unescapeBytes (b :: bs) = b :: unescapeBytes bs := by
  rw [unescapeBytes.eq_def]
  split
  · next x y z rest heq =>
    cases heq
    cases hbyte : octalByte? x y z with
    | none => rfl
    | some byte => exact absurd ⟨x, y, z, rfl, hbyte⟩ (h byte rest)
  · next heq =>
    cases heq
    rfl
  · next heq => cases heq

theorem utf8EncodeChar_octalDigit : ∀ n < 8,
    String.utf8EncodeChar (octalDigit n) = [UInt8.ofNat (0x30 + n)] := by decide

theorem octalByte?_digits : ∀ n < 256, octalByte? (UInt8.ofNat (0x30 + n / 64))
    (UInt8.ofNat (0x30 + n / 8 % 8)) (UInt8.ofNat (0x30 + n % 8)) = some (UInt8.ofNat n) := by
  decide +kernel

theorem encode_escapeByte (b : UInt8) : (escapeByte b).flatMap String.utf8EncodeChar =
    [0x5C, UInt8.ofNat (0x30 + b.toNat / 64), UInt8.ofNat (0x30 + b.toNat / 8 % 8),
      UInt8.ofNat (0x30 + b.toNat % 8)] := by
  have hb : b.toNat < 256 := b.toNat_lt
  have hbackslash : String.utf8EncodeChar '\\' = [0x5C] := by decide
  simp only [escapeByte, List.flatMap_cons, List.flatMap_nil, hbackslash, List.cons_append,
    List.nil_append, utf8EncodeChar_octalDigit (b.toNat / 64) (by omega),
    utf8EncodeChar_octalDigit (b.toNat / 8 % 8) (by omega),
    utf8EncodeChar_octalDigit (b.toNat % 8) (by omega)]

theorem unescapeBytes_escapeByte (b : UInt8) (rest : Bytes) :
    unescapeBytes ((escapeByte b).flatMap String.utf8EncodeChar ++ rest) =
      b :: unescapeBytes rest := by
  have hbyte := octalByte?_digits b.toNat b.toNat_lt
  rw [UInt8.ofNat_toNat] at hbyte
  rw [encode_escapeByte]
  exact unescapeBytes_of_opens ⟨_, _, _, rfl, hbyte⟩

theorem unescapeBytes_escapeBytes (bs rest : Bytes) :
    unescapeBytes ((bs.flatMap escapeByte).flatMap String.utf8EncodeChar ++ rest) =
      bs ++ unescapeBytes rest := by
  induction bs with
  | nil => rfl
  | cons b bs ih =>
    rw [List.flatMap_cons, List.flatMap_append, List.append_assoc, unescapeBytes_escapeByte, ih,
      List.cons_append]

/-! ## Reading plain bytes -/

theorem unescapeBytes_cons {b : UInt8} (hb : b ≠ 0x5C) (rest : Bytes) :
    unescapeBytes (b :: rest) = b :: unescapeBytes rest := by
  refine unescapeBytes_of_not_opens ?_
  rintro _ _ ⟨_, _, _, heq, -⟩
  exact hb (List.cons.inj heq).1

theorem unescapeBytes_append {bs : Bytes} (h : 0x5C ∉ bs) (rest : Bytes) :
    unescapeBytes (bs ++ rest) = bs ++ unescapeBytes rest := by
  induction bs with
  | nil => rfl
  | cons b bs ih =>
    rw [List.mem_cons, not_or] at h
    rw [List.cons_append, unescapeBytes_cons (Ne.symm h.1), ih h.2, List.cons_append]

theorem ofNat_ne_backslash {n : Nat} (hn : n < 256) (h : n ≠ 92) : 0x5C ≠ UInt8.ofNat n := by
  intro heq
  refine h ?_
  rw [← UInt8.toNat_ofNat_of_lt' hn, ← heq]
  rfl

/-- The byte of a backslash is in no other character: all bytes of a longer one are high. -/
theorem backslash_notMem_encode {c : Char} (hc : c ≠ '\\') : 0x5C ∉ String.utf8EncodeChar c := by
  have hval : c.val.toNat ≠ 92 := fun h => hc (Char.ext (UInt32.toNat_inj.1 h))
  intro hmem
  unfold String.utf8EncodeChar at hmem
  simp only at hmem
  split at hmem
  · next h =>
    exact ofNat_ne_backslash (Nat.lt_of_le_of_lt h (by decide)) hval (List.mem_singleton.1 hmem)
  split at hmem
  · simp only [List.mem_cons, List.not_mem_nil, or_false] at hmem
    rcases hmem with h | h <;> exact ofNat_ne_backslash (by omega) (by omega) h
  split at hmem
  · simp only [List.mem_cons, List.not_mem_nil, or_false] at hmem
    rcases hmem with h | h | h <;> exact ofNat_ne_backslash (by omega) (by omega) h
  · simp only [List.mem_cons, List.not_mem_nil, or_false] at hmem
    rcases hmem with h | h | h | h <;> exact ofNat_ne_backslash (by omega) (by omega) h

/-! ## Reading a field -/

theorem unescapeBytes_of_spelled {field text : List Char} (h : Spelled field text) :
    unescapeBytes (field.flatMap String.utf8EncodeChar) = text.flatMap String.utf8EncodeChar := by
  induction h with
  | nil => rfl
  | plain hc _ ih =>
    rw [List.flatMap_cons, unescapeBytes_append (backslash_notMem_encode hc), ih, List.flatMap_cons]
  | octal _ ih =>
    rw [List.flatMap_append, octal, unescapeBytes_escapeBytes, ih, List.flatMap_cons]

/-- Reading the escapes of a field gives the text that it spells. -/
theorem unescape_of_spelled {field text : String} (h : Spelled field.toList text.toList) :
    unescape field = text := by
  rw [unescape, Utf8.encode, unescapeBytes_of_spelled h]
  exact Utf8.lossy_encode text

/-- A field without backslashes is read as it stands. -/
theorem spelled_self {cs : List Char} (h : '\\' ∉ cs) : Spelled cs cs := by
  induction cs with
  | nil => exact .nil
  | cons c cs ih =>
    rw [List.mem_cons, not_or] at h
    exact .plain (Ne.symm h.1) (ih h.2)

/-! ## The writer of the kernel -/

/-- The characters that the kernel escapes in a mount table. -/
def isEscaped (c : Char) : Bool := c == ' ' || c == '\t' || c == '\n' || c == '\\'

/-- A character as the kernel writes it. -/
def escapeChar (c : Char) : List Char := if isEscaped c then octal c else [c]

/-- A text as the kernel writes it. -/
def escape (text : String) : String := String.ofList (text.toList.flatMap escapeChar)

theorem spelled_escapeChars (cs : List Char) : Spelled (cs.flatMap escapeChar) cs := by
  induction cs with
  | nil => exact .nil
  | cons c cs ih =>
    rw [List.flatMap_cons, escapeChar]
    split
    · exact .octal ih
    · next hc =>
      refine .plain ?_ ih
      rintro rfl
      exact hc rfl

/-- Reading undoes the writer of the kernel. -/
theorem unescape_escape (text : String) : unescape (escape text) = text := by
  refine unescape_of_spelled ?_
  rw [escape, String.toList_ofList]
  exact spelled_escapeChars text.toList

example : escape "a b\tc\nd\\e\u3000" = "a\\040b\\011c\\012d\\134e\u3000" := by decide +kernel

end NodeHealth.Mount
