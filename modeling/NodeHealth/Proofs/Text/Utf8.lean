import NodeHealth.Text.Utf8

/-!
# Encoded text reads back

The bytes of a character are one part of a byte string, whatever follows them (`scan_char`), so
reading undoes encoding.

* `scan_encode`: the parts of an encoded text are its characters.
* `decode?_encode`, `lossy_encode`: strict and lossy reading both give the text back.
-/

namespace NodeHealth.Utf8

/-! ## The first byte -/

theorem lead?_two : ∀ n < 256, 0xC2 ≤ n → n < 0xE0 →
    lead? (UInt8.ofNat n) = some ⟨1, n - 0xC0, 0x80, 0xBF⟩ := by decide +kernel

theorem lead?_three : ∀ n < 256, 0xE0 ≤ n → n < 0xF0 →
    lead? (UInt8.ofNat n) =
      some ⟨2, n - 0xE0, if n = 0xE0 then 0xA0 else 0x80, if n = 0xED then 0x9F else 0xBF⟩ := by
  decide +kernel

theorem lead?_four : ∀ n < 256, 0xF0 ≤ n → n ≤ 0xF4 →
    lead? (UInt8.ofNat n) =
      some ⟨3, n - 0xF0, if n = 0xF0 then 0x90 else 0x80, if n = 0xF4 then 0x8F else 0xBF⟩ := by
  decide +kernel

/-! ## The bytes behind it -/

theorem readTail_cons {low high : UInt8} {n byte : Nat} (hbyte : byte < 256)
    (hlow : low.toNat ≤ byte) (hhigh : byte ≤ high.toNat) (value : Nat) (bs : Bytes) :
    readTail (n + 1) low high value (UInt8.ofNat byte :: bs) =
      readTail n 0x80 0xBF (value * 64 + (byte - 0x80)) bs := by
  have hofNat : (UInt8.ofNat byte).toNat = byte := UInt8.toNat_ofNat_of_lt' hbyte
  rw [readTail, if_pos (by simp [UInt8.le_iff_toNat_le, hofNat, hlow, hhigh]), hofNat]

/-- A byte that carries six bits of the value and no narrowed range. -/
theorem readTail_six {n bits : Nat} (hbits : bits < 64) (value : Nat) (bs : Bytes) :
    readTail (n + 1) 0x80 0xBF value (UInt8.ofNat (bits + 128) :: bs) =
      readTail n 0x80 0xBF (value * 64 + bits) bs := by
  have hlow : (0x80 : UInt8).toNat = 128 := rfl
  have hhigh : (0xBF : UInt8).toNat = 191 := rfl
  rw [readTail_cons (by omega) (by omega) (by omega), Nat.add_sub_cancel]

theorem scan_lead {n : Nat} {l : Lead} (hn : 0x80 ≤ n) (h256 : n < 256)
    (hlead : lead? (UInt8.ofNat n) = some l) {value : Nat} {tail rest : Bytes}
    (htail : readTail l.follow l.low l.high l.payload tail = (some value, rest)) :
    scan (UInt8.ofNat n :: tail) = some (Char.ofNat value) :: scan rest := by
  have hofNat : (UInt8.ofNat n).toNat = n := UInt8.toNat_ofNat_of_lt' h256
  have hhigh : ¬ UInt8.ofNat n < 0x80 := by
    rw [UInt8.lt_iff_toNat_lt, hofNat]
    exact Nat.not_lt.2 hn
  rw [scan, if_neg hhigh, hlead]
  simp only [htail, Option.map_some]

/-! ## One character -/

theorem scan_one {n : Nat} (hn : n ≤ 127) (rest : Bytes) :
    scan (UInt8.ofNat n :: rest) = some (Char.ofNat n) :: scan rest := by
  have h256 : n < 256 := Nat.lt_of_le_of_lt hn (by decide)
  have hofNat : (UInt8.ofNat n).toNat = n := UInt8.toNat_ofNat_of_lt' h256
  have hlow : UInt8.ofNat n < 0x80 := by
    rw [UInt8.lt_iff_toNat_lt, hofNat]
    exact Nat.lt_succ_of_le hn
  rw [scan, if_pos hlow, hofNat]

theorem scan_two {n : Nat} (hlow : 127 < n) (hhigh : n ≤ 2047) (rest : Bytes) :
    scan (UInt8.ofNat (n / 64 % 32 + 192) :: UInt8.ofNat (n % 64 + 128) :: rest) =
      some (Char.ofNat n) :: scan rest := by
  refine scan_lead (by omega) (by omega) (lead?_two _ (by omega) (by omega) (by omega)) ?_
  have hvalue : (n / 64 % 32 + 192 - 192) * 64 + n % 64 = n := by omega
  rw [readTail_six (by omega), readTail, hvalue]

/-- The byte behind the first is narrowed after 0xE0, which shuts out shorter forms, and after 0xED,
which shuts out surrogates. -/
theorem scan_three {n : Nat} (hlow : 2047 < n) (hhigh : n ≤ 65535) (hvalid : n.isValidChar)
    (rest : Bytes) :
    scan (UInt8.ofNat (n / 4096 % 16 + 224) :: UInt8.ofNat (n / 64 % 64 + 128) ::
      UInt8.ofNat (n % 64 + 128) :: rest) = some (Char.ofNat n) :: scan rest := by
  refine scan_lead (by omega) (by omega) (lead?_three _ (by omega) (by omega) (by omega)) ?_
  have hsecond : (if n / 4096 % 16 + 224 = 0xE0 then (0xA0 : UInt8) else 0x80).toNat ≤
      n / 64 % 64 + 128 := by
    split
    · show 160 ≤ _
      omega
    · exact Nat.le_add_left 128 _
  have hsecond' : n / 64 % 64 + 128 ≤
      (if n / 4096 % 16 + 224 = 0xED then (0x9F : UInt8) else 0xBF).toNat := by
    split
    · show _ ≤ 159
      omega
    · show _ ≤ 191
      omega
  have hvalue : ((n / 4096 % 16 + 224 - 224) * 64 + (n / 64 % 64 + 128 - 128)) * 64 + n % 64 =
      n := by
    omega
  rw [readTail_cons (by omega) hsecond hsecond', readTail_six (by omega), readTail, hvalue]

/-- The byte behind the first is narrowed after 0xF0, which shuts out shorter forms, and after 0xF4,
which shuts out values beyond the last character. -/
theorem scan_four {n : Nat} (hlow : 65535 < n) (hvalid : n.isValidChar) (rest : Bytes) :
    scan (UInt8.ofNat (n / 262144 % 8 + 240) :: UInt8.ofNat (n / 4096 % 64 + 128) ::
      UInt8.ofNat (n / 64 % 64 + 128) :: UInt8.ofNat (n % 64 + 128) :: rest) =
      some (Char.ofNat n) :: scan rest := by
  refine scan_lead (by omega) (by omega) (lead?_four _ (by omega) (by omega) (by omega)) ?_
  have hsecond : (if n / 262144 % 8 + 240 = 0xF0 then (0x90 : UInt8) else 0x80).toNat ≤
      n / 4096 % 64 + 128 := by
    split
    · show 144 ≤ _
      omega
    · exact Nat.le_add_left 128 _
  have hsecond' : n / 4096 % 64 + 128 ≤
      (if n / 262144 % 8 + 240 = 0xF4 then (0x8F : UInt8) else 0xBF).toNat := by
    split
    · show _ ≤ 143
      omega
    · show _ ≤ 191
      omega
  have hvalue : (((n / 262144 % 8 + 240 - 240) * 64 + (n / 4096 % 64 + 128 - 128)) * 64 +
      n / 64 % 64) * 64 + n % 64 = n := by
    omega
  rw [readTail_cons (by omega) hsecond hsecond', readTail_six (by omega), readTail_six (by omega),
    readTail, hvalue]

theorem scan_char (c : Char) (rest : Bytes) :
    scan (String.utf8EncodeChar c ++ rest) = some c :: scan rest := by
  have hvalid : c.toNat.isValidChar := c.valid
  have hback : Char.ofNat c.toNat = c := Char.ofNat_toNat c
  have hval : c.val.toNat = c.toNat := rfl
  unfold String.utf8EncodeChar
  simp only [hval]
  split
  · next h => rw [List.singleton_append, scan_one h, hback]
  split
  · next h1 h2 =>
    simp only [List.cons_append, List.nil_append]
    rw [scan_two (Nat.lt_of_not_le h1) h2, hback]
  split
  · next h2 h3 =>
    simp only [List.cons_append, List.nil_append]
    rw [scan_three (Nat.lt_of_not_le h2) h3 hvalid, hback]
  · next h3 =>
    simp only [List.cons_append, List.nil_append]
    rw [scan_four (Nat.lt_of_not_le h3) hvalid, hback]

/-! ## A text -/

theorem scan_encodeChars (cs : List Char) (rest : Bytes) :
    scan (cs.flatMap String.utf8EncodeChar ++ rest) = cs.map some ++ scan rest := by
  induction cs with
  | nil => rfl
  | cons c cs ih => rw [List.flatMap_cons, List.append_assoc, scan_char, ih]; rfl

/-- The parts of an encoded text are its characters. -/
theorem scan_encode (s : String) : scan (encode s) = s.toList.map some := by
  have h := scan_encodeChars s.toList []
  rwa [List.append_nil, scan, List.append_nil] at h

theorem mapM_some (cs : List Char) : (cs.map some).mapM id = some cs := by
  induction cs with
  | nil => rfl
  | cons c cs ih => simp [ih]

theorem decode?_encode (s : String) : decode? (encode s) = some s := by
  rw [decode?, scan_encode, mapM_some, Option.map_some, String.ofList_toList]

theorem lossy_encode (s : String) : lossy (encode s) = s := lossy_of_decode? (decode?_encode s)

end NodeHealth.Utf8
