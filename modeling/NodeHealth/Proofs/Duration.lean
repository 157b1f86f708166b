import NodeHealth.Duration
import NodeHealth.Proofs.Text.Numeral

/-!
# Written durations

`Spells` is the grammar of durations: a number and, right behind it, its unit. The text of one unit
may be the end of the text of another, but a number ends with a digit and no unit does, so there is
only one place where the number can end (`splitUnit_reverse`).

* `Spells.unique`: a text spells one number of one unit.
* `ofText?_eq_some_iff`: reading accepts what the grammar does, up to the bounds of `InRange`.
* `ofText?_exact`: what is read lasts as long as the text says, to the nanosecond, and its seconds
  fit 64 bits.
-/

namespace NodeHealth.Duration

variable {d : Duration} {unit : Unit} {n : Nat}

/-! ## The grammar -/

/-- The texts of a unit. -/
def Unit.suffixes : Unit → List (List Char)
  | .second => [[], ['s']]
  | .millisecond => [['m', 's']]
  | .minute => [['m']]

/-- The nanoseconds in a unit. -/
def Unit.nanos : Unit → Nat
  | .second => 1000000000
  | .millisecond => 1000000
  | .minute => 60000000000

/-- The text is a numeral of the number with the unit right behind it. -/
def Spells (cs : List Char) (n : Nat) (unit : Unit) : Prop :=
  ∃ number, ∃ suffix ∈ unit.suffixes, cs = number ++ suffix ∧ Numeral.Denotes number n

/-- The number fits 64 bits, and so do the seconds in a number of minutes. -/
def InRange (n : Nat) (unit : Unit) : Prop :=
  n < UInt64.size ∧ (unit = .minute → 60 * n < UInt64.size)

instance (n : Nat) (unit : Unit) : Decidable (InRange n unit) :=
  inferInstanceAs (Decidable (_ ∧ _))

/-- A span in nanoseconds. -/
def totalNanos (d : Duration) : Nat := d.seconds * 1000000000 + d.nanos

/-! ## Where the number ends -/

theorem exists_suffix_splitUnit (rev : List Char) :
    ∃ suffix ∈ (splitUnit rev).1.suffixes, rev.reverse = (splitUnit rev).2.reverse ++ suffix := by
  unfold splitUnit
  split
  · exact ⟨['m', 's'], by simp [Unit.suffixes], by simp⟩
  · exact ⟨['s'], by simp [Unit.suffixes], by simp⟩
  · exact ⟨['m'], by simp [Unit.suffixes], by simp⟩
  · exact ⟨[], by simp [Unit.suffixes], by simp⟩

/-- What stands before the unit is left whole if it ends with a digit. -/
theorem splitUnit_reverse {number suffix : List Char} (hsuffix : suffix ∈ unit.suffixes)
    (hdigit : ∀ c ∈ number.getLast?, c.isDigit = true) :
    splitUnit (number ++ suffix).reverse = (unit, number.reverse) := by
  have hne : ∀ c : Char, c.isDigit = false → number.reverse.head? ≠ some c := by
    intro c hc hhead
    rw [List.head?_reverse] at hhead
    rw [hdigit c hhead] at hc
    cases hc
  have hm := hne 'm' (by decide)
  have hs := hne 's' (by decide)
  rw [List.reverse_append]
  generalize number.reverse = rev at hm hs
  cases unit with
  | second =>
    simp only [Unit.suffixes, List.mem_cons, List.not_mem_nil, or_false] at hsuffix
    rcases hsuffix with rfl | rfl
    · -- nothing is written for seconds, and the number does not end like a unit
      unfold splitUnit
      split <;> simp_all
    · -- the number does not end with the `m` that would make milliseconds of them
      unfold splitUnit
      split <;> simp_all
  | millisecond =>
    cases List.mem_singleton.1 hsuffix
    rfl
  | minute =>
    cases List.mem_singleton.1 hsuffix
    rfl

/-- A text spells one number of one unit. -/
theorem Spells.unique {cs : List Char} {m : Nat} {unit' : Unit} (h : Spells cs n unit)
    (h' : Spells cs m unit') : n = m ∧ unit = unit' := by
  obtain ⟨number, suffix, hsuffix, hcs, hdenotes⟩ := h
  obtain ⟨number', suffix', hsuffix', hcs', hdenotes'⟩ := h'
  have hsplit := splitUnit_reverse hsuffix hdenotes.isDigit_getLast
  have hsplit' := splitUnit_reverse hsuffix' hdenotes'.isDigit_getLast
  rw [← hcs, hcs', hsplit', Prod.mk.injEq, List.reverse_inj] at hsplit
  obtain ⟨rfl, rfl⟩ := hsplit
  exact ⟨hdenotes.unique hdenotes', rfl⟩

/-! ## Reading -/

theorem totalNanos_eq (d : Duration) : d.totalNanos = d.millis * 1000000 := by
  unfold totalNanos seconds nanos
  omega

theorem nanos_lt (d : Duration) : d.nanos < 1000000000 := by
  unfold nanos
  omega

theorem ofUnits?_eq_some_iff (hn : n < UInt64.size) :
    ofUnits? n unit = some d ↔ InRange n unit ∧ d.totalNanos = n * unit.nanos := by
  obtain ⟨millis⟩ := d
  rw [totalNanos_eq]
  cases unit with
  | second =>
    have hrange : InRange n .second := ⟨hn, fun h => by cases h⟩
    simp only [ofUnits?, ofSeconds, Unit.nanos, Option.some.injEq, mk.injEq, hrange, true_and]
    omega
  | millisecond =>
    have hrange : InRange n .millisecond := ⟨hn, fun h => by cases h⟩
    simp only [ofUnits?, ofMillis, Unit.nanos, Option.some.injEq, mk.injEq, hrange, true_and]
    omega
  | minute =>
    have hrange : InRange n .minute ↔ 60 * n < UInt64.size :=
      ⟨fun h => h.2 rfl, fun h => ⟨hn, fun _ => h⟩⟩
    have hunits : ofUnits? n .minute =
        if 60 * n < UInt64.size then some (ofSeconds (60 * n)) else none := rfl
    rw [hrange, hunits]
    split
    · next h =>
      simp only [ofSeconds, Unit.nanos, Option.some.injEq, mk.injEq, h, true_and]
      omega
    · next h => simp [h]

/-- Reading accepts what the grammar does, up to the bounds. -/
theorem ofText?_eq_some_iff {s : String} :
    ofText? s = some d ↔
      ∃ n unit, Spells (Text.trim s).toList n unit ∧ InRange n unit ∧
        d.totalNanos = n * unit.nanos := by
  unfold ofText?
  generalize (Text.trim s).toList = cs
  constructor
  · intro h
    obtain ⟨n, hnumber, hunits⟩ := Option.bind_eq_some_iff.1 h
    obtain ⟨hdenotes, hn⟩ := Numeral.below?_eq_some_iff.1 hnumber
    obtain ⟨suffix, hsuffix, hcs⟩ := exists_suffix_splitUnit cs.reverse
    rw [List.reverse_reverse] at hcs
    rw [String.toList_ofList] at hdenotes
    exact ⟨n, _, ⟨_, suffix, hsuffix, hcs, hdenotes⟩, (ofUnits?_eq_some_iff hn).1 hunits⟩
  · rintro ⟨n, unit, ⟨number, suffix, hsuffix, rfl, hdenotes⟩, hrange, htotal⟩
    have hword : Numeral.word64? (String.ofList number) = some n := by
      rw [Numeral.word64?, Numeral.below?_eq_some_iff, String.toList_ofList]
      exact ⟨hdenotes, hrange.1⟩
    simp only [splitUnit_reverse hsuffix hdenotes.isDigit_getLast, List.reverse_reverse, hword,
      Option.bind_some]
    exact (ofUnits?_eq_some_iff hrange.1).2 ⟨hrange, htotal⟩

theorem seconds_lt (hrange : InRange n unit) (htotal : d.totalNanos = n * unit.nanos) :
    d.seconds < UInt64.size := by
  obtain ⟨hn, hminutes⟩ := hrange
  unfold totalNanos at htotal
  cases unit with
  | second =>
    simp only [Unit.nanos] at htotal
    omega
  | millisecond =>
    simp only [Unit.nanos] at htotal
    omega
  | minute =>
    have hseconds := hminutes rfl
    simp only [Unit.nanos] at htotal
    omega

/-- A text is read if it spells a number and a unit within the bounds; it spells no two of them.
What is read lasts that number of units, to the nanosecond, and its seconds fit 64 bits. -/
theorem ofText?_exact (s : String) (d : Duration) :
    (ofText? s = some d ↔
      ∃ n unit, Spells (Text.trim s).toList n unit ∧ InRange n unit ∧
        d.totalNanos = n * unit.nanos) ∧
    (∀ n unit m unit', Spells (Text.trim s).toList n unit →
      Spells (Text.trim s).toList m unit' → n = m ∧ unit = unit') ∧
    (ofText? s = some d → d.seconds < UInt64.size ∧ d.nanos < 1000000000) := by
  refine ⟨ofText?_eq_some_iff, fun n unit m unit' h h' => h.unique h', fun h => ?_⟩
  obtain ⟨n, unit, -, hrange, htotal⟩ := ofText?_eq_some_iff.1 h
  exact ⟨seconds_lt hrange htotal, d.nanos_lt⟩

example : ofText? "307445734561825861m" = none := by decide +kernel

/-- A text of the greatest number of minutes that is read. -/
def lastMinuteText : String := " +0307445734561825860m\u3000"

theorem ofText?_exact_lastMinute :
    Spells (Text.trim lastMinuteText).toList 307445734561825860 .minute ∧
    ofText? lastMinuteText = some (ofSeconds 18446744073709551600) ∧
    (∀ n unit, Spells (Text.trim lastMinuteText).toList n unit →
      307445734561825860 = n ∧ .minute = unit) ∧
    (ofSeconds 18446744073709551600).seconds < UInt64.size := by
  have hdenotes : Numeral.Denotes "+0307445734561825860".toList 307445734561825860 :=
    Numeral.unsigned?_eq_some_iff.1 (by decide +kernel)
  have hspells : Spells (Text.trim lastMinuteText).toList 307445734561825860 .minute :=
    ⟨_, ['m'], List.mem_singleton_self _, by decide +kernel, hdenotes⟩
  have hexact := ofText?_exact lastMinuteText (ofSeconds 18446744073709551600)
  have hread := hexact.1.2 ⟨_, _, hspells, by decide, by decide⟩
  exact ⟨hspells, hread, fun n unit h => hexact.2.1 _ _ _ _ hspells h, (hexact.2.2 hread).1⟩

end NodeHealth.Duration
