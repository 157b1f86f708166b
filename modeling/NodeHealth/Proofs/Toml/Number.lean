import Mathlib.Data.List.Basic
import NodeHealth.Proofs.Text.Numeral
import NodeHealth.Toml.ValueReader

/-!
# Digits are read as their number

Digits may begin a moment, a floating-point number or an integer with a base in front of it, and a
decimal integer has no leading zeros. `scalarOf?_toDigits` says that the digits of a number are none
of the other things and denote the number.
-/

namespace NodeHealth.Toml

/-! ## Digits alone -/

theorem digits?_rest {n value : Nat} {cs rest : List Char}
    (h : Moment.digits? n cs = some (value, rest)) : rest = cs.drop n := by
  rw [Moment.digits?] at h
  split at h
  · exact (congrArg Prod.snd (Option.some.inj h)).symm
  · cases h

section Digits

variable {ds : List Char} (hds : ∀ d ∈ ds, d.isDigit = true)
include hds

/-- Behind the first of several digits there stands no other character. -/
theorem expect?_digits {n : Nat} {first : Nat × List Char} (h : Moment.digits? n ds = some first)
    {c : Char} (hc : c.isDigit = false) : Moment.expect? c first.2 = none := by
  have hrest : ∀ d ∈ first.2, d.isDigit = true := by
    rw [digits?_rest h]
    exact fun d hd => hds d (List.mem_of_mem_drop hd)
  cases hfirst : first.2 with
  | nil => rfl
  | cons d rest =>
    have hd : d.isDigit = true := hrest d (by simp [hfirst])
    rw [Moment.expect?, if_neg (Chars.ne_of_test hd hc)]

theorem clock?_digits : Moment.clock? ds = none := by
  rw [Moment.clock?]
  cases h : Moment.digits? 2 ds with
  | none => rfl
  | some hour =>
    have hcolon : Moment.expect? ':' hour.2 = none := expect?_digits hds h (by decide)
    simp [hcolon]

theorem date?_digits : Moment.date? ds = none := by
  rw [Moment.date?]
  cases h : Moment.digits? 4 ds with
  | none => rfl
  | some year =>
    have hhyphen : Moment.expect? '-' year.2 = none := expect?_digits hds h (by decide)
    simp [hhyphen]

/-- Digits alone are no moment: the first part of a moment is followed by a colon or a hyphen. -/
theorem isMoment_digits : Moment.isMoment ds = false := by
  have htime : Moment.time? ds = none := by
    rw [Moment.time?, clock?_digits hds]
    rfl
  rw [Moment.isMoment, htime, date?_digits hds]
  rfl

theorem splitSign_digits : Number.splitSign ds = (false, ds) := by
  cases ds with
  | nil => rfl
  | cons d ds =>
    have hd : d.isDigit = true := hds d List.mem_cons_self
    rw [Number.splitSign.eq_3]
    · exact fun cs h => Chars.ne_of_test hd (by decide) (List.cons.inj h).1
    · exact fun cs h => Chars.ne_of_test hd (by decide) (List.cons.inj h).1

theorem ne_of_head_letter {c : Char} (hc : c.isDigit = false) (word : List Char) :
    ds ≠ c :: word := by
  rintro rfl
  exact Chars.ne_of_test (hds c List.mem_cons_self) hc rfl

/-- Digits alone are no floating-point number: there is no fraction and no exponent behind them. -/
theorem isFloat_digits : Number.isFloat ds = false := by
  have hspan : ds.span (fun c => c.isDigit || c = '_') = (ds, []) := by
    have hall : ∀ c ∈ ds, (c.isDigit || c = '_') = true := fun c hc => by simp [hds c hc]
    have h := Chars.span_append hall (fun c (hc : c ∈ [].head?) => nomatch hc)
    rwa [List.append_nil] at h
  have hparts : Number.parts? ds = none := by
    rw [Number.parts?, splitSign_digits hds]
    simp only [hspan]
    cases Number.decimal? ds <;> rfl
  have hinf : (ds == "inf".toList) = false := beq_false_of_ne (ne_of_head_letter hds (by decide) _)
  have hnan : (ds == "nan".toList) = false := beq_false_of_ne (ne_of_head_letter hds (by decide) _)
  rw [Number.isFloat, splitSign_digits hds, hparts, hinf, hnan]
  rfl

theorem ungroup?_digits (hne : ds ≠ []) : Number.ungroup? Char.isDigit ds = some ds := by
  induction ds with
  | nil => exact absurd rfl hne
  | cons d ds ih =>
    have hd : d.isDigit = true := hds d List.mem_cons_self
    have hrest : ∀ x ∈ ds, x.isDigit = true := fun x hx => hds x (List.mem_cons_of_mem d hx)
    cases ds with
    | nil => rw [Number.ungroup?, if_pos hd]
    | cons e rest =>
      have he : e ≠ '_' := Chars.ne_of_test (hrest e List.mem_cons_self) (by decide)
      rw [Number.ungroup?, if_pos hd, ih hrest (List.cons_ne_nil e rest), Option.map_some]
      exact fun _ _ h => absurd h he

end Digits

/-! ## The digits of a number -/

theorem head?_toDigits {n : Nat} (hn : 0 < n) : (Nat.toDigits 10 n).head? ≠ some '0' := by
  induction n using Nat.strongRecOn with
  | ind n ih =>
    by_cases h : n < 10
    · rw [Nat.toDigits_of_lt_base h]
      have hdigit : ∀ m < 10, 0 < m → [Nat.digitChar m].head? ≠ some '0' := by decide
      exact hdigit n h hn
    · have hquot : 0 < n / 10 := by omega
      rw [Nat.toDigits_of_base_le (by decide) (Nat.le_of_not_lt h),
        List.head?_append_of_ne_nil _ Nat.toDigits_ne_nil]
      exact ih (n / 10) (by omega) hquot

theorem decimal?_toDigits (n : Nat) :
    Number.decimal? (Nat.toDigits 10 n) = some (Nat.toDigits 10 n) := by
  rw [Number.decimal?, ungroup?_digits (fun _ => Numeral.isDigit_of_mem_toDigits)
    Nat.toDigits_ne_nil, Option.filter_some, if_pos]
  by_cases h : n < 10
  · rw [Nat.toDigits_of_lt_base h]
    rfl
  · have hhead := @head?_toDigits n (by omega)
    simp [hhead]

theorem integer?_toDigits {n : Nat} (hn : n < Numeral.signedLimit) :
    Number.integer? (Nat.toDigits 10 n) = some (n : Int) := by
  have hds : ∀ d ∈ Nat.toDigits 10 n, d.isDigit = true := fun _ => Numeral.isDigit_of_mem_toDigits
  have hbase : ∀ x, x.isDigit = false → ∀ rest, Nat.toDigits 10 n ≠ '0' :: x :: rest := by
    intro x hx rest h
    exact Chars.ne_of_test (hds x (by simp [h])) hx rfl
  have hlow : (-(Numeral.signedLimit : Int) ≤ n && (n : Int) < Numeral.signedLimit) = true := by
    simp only [Bool.and_eq_true, decide_eq_true_eq]
    omega
  rw [Number.integer?, splitSign_digits hds]
  · simp only [decimal?_toDigits, Option.map_some, Nat.ofDigitChars_ten_toDigits,
      if_neg Bool.false_ne_true]
    rw [Option.filter_some, if_pos hlow]
  · exact hbase 'x' (by decide)
  · exact hbase 'o' (by decide)
  · exact hbase 'b' (by decide)

/-- The digits of a number are read as this number. -/
theorem scalarOf?_toDigits {n : Nat} (hn : n < Numeral.signedLimit) :
    scalarOf? (Nat.toDigits 10 n) = some (.integer n) := by
  have hds : ∀ d ∈ Nat.toDigits 10 n, d.isDigit = true :=
    fun _ => Numeral.isDigit_of_mem_toDigits
  have htrue : Nat.toDigits 10 n ≠ "true".toList := ne_of_head_letter hds (by decide) _
  have hfalse : Nat.toDigits 10 n ≠ "false".toList := ne_of_head_letter hds (by decide) _
  rw [scalarOf?, if_neg htrue, if_neg hfalse, isMoment_digits hds, isFloat_digits hds,
    integer?_toDigits hn]
  rfl

end NodeHealth.Toml
