/-!
# UTF-8

A byte string is read as a list of maximal parts: each part is a character or an ill-formed
sequence, the latter as long as it could still have become a character. Strict reading
(`decode?`) wants only characters; lossy reading (`lossy`) puts U+FFFD for each ill-formed part.
Both read the same parts, so they agree wherever strict reading succeeds (`lossy_of_decode?`).
-/

namespace NodeHealth

/-- A byte string. -/
abbrev Bytes := List UInt8

namespace Utf8

/-- What a first byte announces: how many bytes follow, the payload it carries itself, and the
range of the byte after it. -/
structure Lead where
  follow : Nat
  payload : Nat
  low : UInt8
  high : UInt8
  deriving DecidableEq, Repr

/-- The announcement of a first byte of at least 0x80. The narrowed ranges shut out overlong
forms, surrogates and values beyond U+10FFFF. -/
def lead? (b : UInt8) : Option Lead :=
  if b < 0xC2 then none
  else if b < 0xE0 then some ⟨1, b.toNat - 0xC0, 0x80, 0xBF⟩
  else if b = 0xE0 then some ⟨2, 0, 0xA0, 0xBF⟩
  else if b = 0xED then some ⟨2, 0xD, 0x80, 0x9F⟩
  else if b < 0xF0 then some ⟨2, b.toNat - 0xE0, 0x80, 0xBF⟩
  else if b = 0xF0 then some ⟨3, 0, 0x90, 0xBF⟩
  else if b < 0xF4 then some ⟨3, b.toNat - 0xF0, 0x80, 0xBF⟩
  else if b = 0xF4 then some ⟨3, 4, 0x80, 0x8F⟩
  else none

/-- Reads `follow` further bytes into the value; stops in front of the first that does not fit. -/
def readTail : (follow : Nat) → (low high : UInt8) → (value : Nat) → Bytes → Option Nat × Bytes
  | 0, _, _, value, bs => (some value, bs)
  | _ + 1, _, _, _, [] => (none, [])
  | n + 1, low, high, value, b :: bs =>
    if low ≤ b && b ≤ high then readTail n 0x80 0xBF (value * 64 + (b.toNat - 0x80)) bs
    else (none, b :: bs)

theorem readTail_length_le (n : Nat) (low high : UInt8) (value : Nat) (bs : Bytes) :
    (readTail n low high value bs).2.length ≤ bs.length := by
  induction n generalizing low high value bs with
  | zero => simp [readTail]
  | succ n ih =>
    cases bs with
    | nil => simp [readTail]
    | cons b bs =>
      unfold readTail
      split
      · exact Nat.le_succ_of_le (ih ..)
      · exact Nat.le_refl _

/-- The parts of a byte string: a character, or `none` for an ill-formed sequence. -/
def scan : Bytes → List (Option Char)
  | [] => []
  | b :: bs =>
    if b < 0x80 then some (Char.ofNat b.toNat) :: scan bs
    else match lead? b with
      | none => none :: scan bs
      | some l =>
        (readTail l.follow l.low l.high l.payload bs).1.map Char.ofNat ::
          scan (readTail l.follow l.low l.high l.payload bs).2
termination_by bs => bs.length
decreasing_by
  all_goals simp only [List.length_cons]
  all_goals first
    | omega
    | exact Nat.lt_succ_of_le (readTail_length_le ..)

/-- The text that a byte string encodes, if all of it is well formed. -/
def decode? (bs : Bytes) : Option String :=
  ((scan bs).mapM id).map String.ofList

/-- The text of a byte string with U+FFFD in place of each ill-formed part. -/
def lossy (bs : Bytes) : String :=
  String.ofList ((scan bs).map (·.getD '\uFFFD'))

/-- The bytes of a text. -/
def encode (s : String) : Bytes := s.toList.flatMap String.utf8EncodeChar

theorem map_getD_of_mapM {parts : List (Option Char)} {cs : List Char}
    (h : parts.mapM id = some cs) : parts.map (·.getD '\uFFFD') = cs := by
  induction parts generalizing cs with
  | nil => simp_all
  | cons p ps ih =>
    cases p with
    | none => simp at h
    | some c =>
      simp only [List.mapM_cons, id_eq, Option.pure_def, Option.bind_eq_bind,
        Option.bind_some] at h
      cases hm : ps.mapM id with
      | none => simp [hm] at h
      | some ds => simp_all

theorem lossy_of_decode? {bs : Bytes} {s : String} (h : decode? bs = some s) : lossy bs = s := by
  obtain ⟨cs, hcs, rfl⟩ := Option.map_eq_some_iff.1 h
  rw [lossy, map_getD_of_mapM hcs]

end Utf8

end NodeHealth
