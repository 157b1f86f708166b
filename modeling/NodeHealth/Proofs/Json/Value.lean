import NodeHealth.Json.Value
import NodeHealth.Proofs.Json.Quoted
import NodeHealth.Proofs.Text.Separated

/-!
# Written values read back

Reading undoes writing for every value whose numbers and strings are in order (`WellFormed`). The
induction is on the value; what carries it is that the reader of a value stops where the value
ends, whatever stands behind it that no number could go on with (`Ends`).

* `items_intercalate`: a list of written items is read back by any reader that reads back each.
* `value_write`: a written value is read back, and what stands behind it is left.
* `ofText?_compact`: a text that is a written value holds that value.
* `le_toNat_of_mem_write`: a written value holds no control character.
-/

namespace NodeHealth.Json

/-- What stands behind a value is nothing that a number could go on with. -/
def Ends (rest : List Char) : Prop := ∀ c ∈ rest.head?, isNumberChar c = false

theorem ends_nil : Ends [] := nofun

theorem ends_cons {c : Char} {rest : List Char} (h : isNumberChar c = false) :
    Ends (c :: rest) := by
  intro x hx
  cases hx
  exact h

/-- The body of a string: the quote behind it is the first that closes it, and no control character
stands in it. -/
structure IsBody (body : List Char) : Prop where
  span : ∀ rest, span? (body ++ '"' :: rest) = some (body, rest)
  high : ∀ c ∈ body, 0x20 ≤ c.toNat

theorem isBody_escape (cs : List Char) : IsBody (escape cs) where
  span := span?_escape cs
  high _ := le_toNat_of_mem_escape

/-- The numbers and strings of a value are in order. -/
inductive WellFormed : Json → Prop
  | null : WellFormed .null
  | bool (b : Bool) : WellFormed (.bool b)
  | number {text : List Char} (shape : isNumber text = true)
      (chars : ∀ c ∈ text, isNumberChar c = true) : WellFormed (.number text)
  | string {body : List Char} (isBody : IsBody body) : WellFormed (.string body)
  | array {items : List Json} (wellFormed : ∀ j ∈ items, WellFormed j) : WellFormed (.array items)
  | object {members : List (List Char × Json)} (keys : ∀ m ∈ members, IsBody m.1)
      (wellFormed : ∀ m ∈ members, WellFormed m.2) : WellFormed (.object members)

theorem wellFormed_ofString (s : String) : WellFormed (ofString s) := .string (isBody_escape _)

/-! ## The text of a list -/

/-- A written member. -/
def writeMember (m : List Char × Json) : List Char := quoted m.1 ++ ':' :: write m.2

theorem writeItems_eq (items : List Json) :
    writeItems items = [','].intercalate (items.map write) := by
  match items with
  | [] => simp [writeItems]
  | [item] => simp [writeItems]
  | item :: next :: items =>
    simp [writeItems, writeItems_eq (next :: items), List.intercalate_cons_cons]

theorem writeMembers_eq (members : List (List Char × Json)) :
    writeMembers members = [','].intercalate (members.map writeMember) := by
  match members with
  | [] => simp [writeMembers]
  | [m] => simp [writeMembers, writeMember]
  | m :: next :: members =>
    simp [writeMembers, writeMembers_eq (next :: members), List.intercalate_cons_cons, writeMember]

/-! ## Reading a list -/

theorem skipSpace_cons {c : Char} (h : isSpace c = false) (cs : List Char) :
    skipSpace (c :: cs) = c :: cs := by
  simp [skipSpace, h]

section Items

variable {α : Type} {item : Reader α} {print : α → List Char} {close : Char}

/-- Each of the items is read back from its text. -/
def ReadsBack (item : Reader α) (print : α → List Char) (xs : List α) : Prop :=
  ∀ x ∈ xs, ∀ rest, Ends rest → item (print x ++ rest) = some (x, rest)

theorem items_intercalate (hclose : isSpace close = false) (hends : isNumberChar close = false)
    (hcomma : close ≠ ',') (xs : List α) (hne : xs ≠ []) (h : ReadsBack item print xs)
    (rest : List Char) :
    items item close ([','].intercalate (xs.map print) ++ close :: rest) = some (xs, rest) := by
  match xs with
  | [] => exact absurd rfl hne
  | [x] =>
    have hx := h x List.mem_cons_self (close :: rest) (ends_cons hends)
    rw [items.eq_def]
    simp [hx, skipSpace_cons hclose]
  | x :: next :: xs =>
    have hnext : ReadsBack item print (next :: xs) := fun y hy => h y (List.mem_cons_of_mem x hy)
    have ih := items_intercalate hclose hends hcomma (next :: xs) nofun hnext rest
    generalize htail : [','].intercalate ((next :: xs).map print) ++ close :: rest = tail at ih
    have htext : [','].intercalate ((x :: next :: xs).map print) ++ close :: rest =
        print x ++ ',' :: tail := by
      rw [← htail]
      simp [List.intercalate_cons_cons]
    have hx := h x List.mem_cons_self (',' :: tail) (ends_cons (by decide))
    have hshorter : tail.length < (print x).length + (tail.length + 1) := by omega
    rw [htext, items.eq_def]
    simp [hx, skipSpace_cons (show isSpace ',' = false by decide), hcomma.symm, hshorter, ih]

/-- A text begins with something other than a blank or the bracket that closes a list. -/
def Opens (close : Char) (cs : List Char) : Prop :=
  ∃ c tail, cs = c :: tail ∧ isSpace c = false ∧ c ≠ close

theorem bracketed_intercalate (hclose : isSpace close = false) (hends : isNumberChar close = false)
    (hcomma : close ≠ ',') {xs : List α} (h : ReadsBack item print xs)
    (hopens : ∀ x ∈ xs, Opens close (print x)) (rest : List Char) :
    bracketed item close ([','].intercalate (xs.map print) ++ close :: rest) = some (xs, rest) := by
  cases xs with
  | nil => simp [bracketed, skipSpace_cons hclose]
  | cons x xs =>
    obtain ⟨c, tail, hc, hspace, hother⟩ := hopens x List.mem_cons_self
    have hitems := items_intercalate hclose hends hcomma (x :: xs) nofun h rest
    obtain ⟨tail', htail'⟩ :
        ∃ tail', [','].intercalate ((x :: xs).map print) ++ close :: rest = c :: tail' := by
      cases xs with
      | nil => exact ⟨tail ++ close :: rest, by simp [hc]⟩
      | cons y ys =>
        rw [List.map_cons, List.map_cons, List.intercalate_cons_cons, hc]
        exact ⟨_, rfl⟩
    rw [htail'] at hitems ⊢
    simp [bracketed, skipSpace_cons hspace, hother, hitems]

end Items

/-! ## Reading a value -/

theorem isSpace_of_isNumberChar {c : Char} (h : isNumberChar c = true) : isSpace c = false := by
  have hne : ∀ x, isNumberChar x = false → c ≠ x := fun _ => Chars.ne_of_test h
  simp [isSpace, hne ' ' (by decide), hne '\t' (by decide), hne '\n' (by decide),
    hne '\r' (by decide)]

theorem exists_cons_of_isNumber {text : List Char} (h : isNumber text = true) :
    ∃ c tail, text = c :: tail := by
  cases text with
  | nil => cases h
  | cons c tail => exact ⟨c, tail, rfl⟩

theorem scalar_number {text rest : List Char} (shape : isNumber text = true)
    (chars : ∀ c ∈ text, isNumberChar c = true) (hrest : Ends rest) :
    scalar (text ++ rest) = some (.number text, rest) := by
  obtain ⟨c, tail, rfl⟩ := exists_cons_of_isNumber shape
  have hc : isNumberChar c = true := chars c List.mem_cons_self
  have hspan : (c :: tail ++ rest).span isNumberChar = (c :: tail, rest) :=
    Chars.span_append chars hrest
  rw [List.cons_append] at hspan ⊢
  rw [scalar.eq_def]
  split
  case h_5 => rw [hspan]; exact if_pos shape
  all_goals
    next h =>
      rw [(List.cons.inj h).1] at hc
      exact absurd hc (by decide)

/-- What is neither array nor object is read as it is at any depth. -/
theorem value_of_head {c : Char} (hspace : isSpace c = false) (harray : c ≠ '[') (hobject : c ≠ '{')
    (depth : Nat) (cs : List Char) : value depth (c :: cs) = scalar (c :: cs) := by
  cases depth with
  | zero => rw [value, skipSpace_cons hspace]
  | succ depth =>
    rw [value, skipSpace_cons hspace]
    split
    · next h => cases h; exact absurd rfl harray
    · next h => cases h; exact absurd rfl hobject
    · rfl

theorem opens_write {j : Json} (h : WellFormed j) : Opens ']' (write j) := by
  cases h with
  | null => exact ⟨_, _, rfl, rfl, by decide⟩
  | bool b => cases b <;> exact ⟨_, _, rfl, rfl, by decide⟩
  | number shape chars =>
    obtain ⟨c, tail, rfl⟩ := exists_cons_of_isNumber shape
    have hc := chars c List.mem_cons_self
    exact ⟨c, tail, rfl, isSpace_of_isNumberChar hc, Chars.ne_of_test hc (by decide)⟩
  | string => exact ⟨'"', _, rfl, rfl, by decide⟩
  | array => exact ⟨'[', _, by rw [write]; rfl, rfl, by decide⟩
  | object => exact ⟨'{', _, by rw [write]; rfl, rfl, by decide⟩

theorem member_write {m : List Char × Json} {depth : Nat} (hkey : IsBody m.1)
    (h : ∀ rest, Ends rest → value depth (write m.2 ++ rest) = some (m.2, rest)) {rest : List Char}
    (hrest : Ends rest) : member (value depth) (writeMember m ++ rest) = some (m, rest) := by
  have htext : writeMember m ++ rest = '"' :: (m.1 ++ '"' :: ':' :: (write m.2 ++ rest)) := by
    simp [writeMember, quoted]
  rw [htext, member, skipSpace_cons (by decide)]
  simp [hkey.span, skipSpace_cons (show isSpace ':' = false by decide), h rest hrest]

/-- A written value is read back at any depth that is not less than its length. -/
theorem value_write {j : Json} (h : WellFormed j) (depth : Nat) (hdepth : (write j).length ≤ depth)
    (rest : List Char) (hrest : Ends rest) : value depth (write j ++ rest) = some (j, rest) := by
  induction h generalizing depth rest with
  | null => exact value_of_head rfl (by decide) (by decide) depth _
  | bool b => cases b <;> exact value_of_head rfl (by decide) (by decide) depth _
  | number shape chars =>
    obtain ⟨c, tail, rfl⟩ := exists_cons_of_isNumber shape
    have hc := chars c List.mem_cons_self
    rw [write, ← scalar_number shape chars hrest]
    exact value_of_head (isSpace_of_isNumberChar hc) (Chars.ne_of_test hc (by decide))
      (Chars.ne_of_test hc (by decide)) depth _
  | @string body isBody =>
    have htext : write (.string body) ++ rest = '"' :: (body ++ '"' :: rest) := by
      simp [write, quoted]
    rw [htext, value_of_head rfl (by decide) (by decide), scalar, isBody.span]
    rfl
  | @array items wellFormed ih =>
    have htext : write (.array items) ++ rest =
        '[' :: ([','].intercalate (items.map write) ++ ']' :: rest) := by
      simp [write, writeItems_eq]
    obtain ⟨d, rfl, hlen⟩ :
        ∃ d, depth = d + 1 ∧ ([','].intercalate (items.map write)).length ≤ d := by
      simp only [write, writeItems_eq, List.length_cons, List.length_append] at hdepth
      exact ⟨depth - 1, by omega, by omega⟩
    have hread : ReadsBack (value d) write items := by
      intro j hj rest hrest
      have hpiece := (Chars.infix_intercalate [','] (List.mem_map_of_mem (f := write) hj)).length_le
      exact ih j hj d (Nat.le_trans hpiece hlen) rest hrest
    have hopens : ∀ j ∈ items, Opens ']' (write j) := fun j hj => opens_write (wellFormed j hj)
    rw [htext, value, skipSpace_cons (by decide)]
    simp [bracketed_intercalate (by decide) (by decide) (by decide) hread hopens rest]
  | @object members keys wellFormed ih =>
    have htext : write (.object members) ++ rest =
        '{' :: ([','].intercalate (members.map writeMember) ++ '}' :: rest) := by
      simp [write, writeMembers_eq]
    obtain ⟨d, rfl, hlen⟩ :
        ∃ d, depth = d + 1 ∧ ([','].intercalate (members.map writeMember)).length ≤ d := by
      simp only [write, writeMembers_eq, List.length_cons, List.length_append] at hdepth
      exact ⟨depth - 1, by omega, by omega⟩
    have hread : ReadsBack (member (value d)) writeMember members := by
      intro m hm rest hrest
      have hpiece :=
        (Chars.infix_intercalate [','] (List.mem_map_of_mem (f := writeMember) hm)).length_le
      have hvalue : (write m.2).length ≤ d := by
        simp only [writeMember, List.length_append, List.length_cons] at hpiece
        omega
      exact member_write (keys m hm) (ih m hm d hvalue) hrest
    have hopens : ∀ m ∈ members, Opens '}' (writeMember m) :=
      fun m _ => ⟨'"', _, rfl, rfl, by decide⟩
    rw [htext, value, skipSpace_cons (by decide)]
    simp [bracketed_intercalate (by decide) (by decide) (by decide) hread hopens rest]

/-- A text that is a written value holds that value. -/
theorem ofText?_compact {j : Json} (h : WellFormed j) : ofText? j.compact = some j := by
  have hlen : (write j).length ≤ j.compact.length := by simp [compact]
  have hread := value_write h j.compact.length hlen [] ends_nil
  rw [List.append_nil] at hread
  rw [ofText?, compact, String.toList_ofList, ← compact, hread]
  rfl

/-! ## Control characters -/

theorem le_toNat_of_isNumberChar {c : Char} (h : isNumberChar c = true) : 0x20 ≤ c.toNat := by
  simp only [isNumberChar, Bool.or_eq_true, decide_eq_true_eq] at h
  rcases h with ((((h | rfl) | rfl) | rfl) | rfl) | rfl
  · exact Nat.le_trans (by decide) (Char.isDigit_iff_toNat.1 h).1
  all_goals decide

theorem le_toNat_of_mem_quoted {body : List Char} (h : IsBody body) {c : Char}
    (hc : c ∈ quoted body) : 0x20 ≤ c.toNat := by
  simp only [quoted, List.cons_append, List.mem_cons, List.mem_append, List.not_mem_nil,
    or_false] at hc
  rcases hc with rfl | hc | rfl
  · decide
  · exact h.high c hc
  · decide

theorem le_toNat_of_all {cs : List Char} (h : (cs.all fun c => 0x20 ≤ c.toNat) = true) {c : Char}
    (hc : c ∈ cs) : 0x20 ≤ c.toNat :=
  of_decide_eq_true (List.all_eq_true.1 h c hc)

/-- A written value holds no control character. -/
theorem le_toNat_of_mem_write {j : Json} (h : WellFormed j) {c : Char} (hc : c ∈ write j) :
    0x20 ≤ c.toNat := by
  induction h with
  | null => exact le_toNat_of_all (by decide) hc
  | bool b => cases b <;> exact le_toNat_of_all (by decide) hc
  | number _ chars => exact le_toNat_of_isNumberChar (chars c (by rwa [write] at hc))
  | string isBody => exact le_toNat_of_mem_quoted isBody (by rwa [write] at hc)
  | array _ ih =>
    simp only [write, writeItems_eq, List.cons_append, List.mem_cons, List.mem_append,
      List.not_mem_nil, or_false] at hc
    rcases hc with rfl | hc | rfl
    · decide
    · rcases Chars.mem_intercalate hc with hc | ⟨piece, hpiece, hc⟩
      · rw [List.mem_singleton.1 hc]
        decide
      · obtain ⟨j, hj, rfl⟩ := List.mem_map.1 hpiece
        exact ih j hj hc
    · decide
  | object keys _ ih =>
    simp only [write, writeMembers_eq, List.cons_append, List.mem_cons, List.mem_append,
      List.not_mem_nil, or_false] at hc
    rcases hc with rfl | hc | rfl
    · decide
    · rcases Chars.mem_intercalate hc with hc | ⟨piece, hpiece, hc⟩
      · rw [List.mem_singleton.1 hc]
        decide
      · obtain ⟨m, hm, rfl⟩ := List.mem_map.1 hpiece
        rcases List.mem_append.1 hc with hc | hc
        · exact le_toNat_of_mem_quoted (keys m hm) hc
        · rcases List.mem_cons.1 hc with rfl | hc
          · decide
          · exact ih m hm hc
    · decide

end NodeHealth.Json
