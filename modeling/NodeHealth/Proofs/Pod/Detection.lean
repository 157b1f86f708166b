import Mathlib.Order.Bounds.Basic
import NodeHealth.Proofs.Pod.Layout

/-!
# When a layout is detected

The end of an annotation is looked for at up to three indices (`window`). `scan?` is detection that
has no result if there is no token at one of them, or none to report where no end is found, which
never happens. Its outcome depends on the least index of a token that closes the annotation.

* `scan?_eq`: no index is out of range, whatever the tokens are.
* `detect?_eq_annotated_iff_isLeast`, `detect?_eq_none_iff`, `detect?_eq_canonical_iff`: the three
  outcomes.
* `detect?_exact`: these, and that nothing behind the eighth token matters.
-/

namespace NodeHealth.Layout

variable {tokens : List String} {close : Nat} {anchor : Anchor}

/-- The fifth token opens an annotation. -/
def HasRemark (tokens : List String) : Prop :=
  ∃ token, tokens[4]? = some token ∧ token.toList.head? = some '('

/-- The token at the index is one of the three that may close an annotation, and it does. -/
def ClosesAt (tokens : List String) (i : Nat) : Prop :=
  4 ≤ i ∧ i ≤ 6 ∧ ∃ token, tokens[i]? = some token ∧ token.toList.getLast? = some ')'

theorem hasRemark_iff : tokens[remarkIndex]?.any opensRemark = true ↔ HasRemark tokens := by
  simp [HasRemark, remarkIndex, opensRemark, Option.any_eq_true]

theorem any_closesRemark_iff {i : Nat} : tokens[i]?.any closesRemark = true ↔
    ∃ token, tokens[i]? = some token ∧ token.toList.getLast? = some ')' := by
  simp [closesRemark, Option.any_eq_true]

theorem lt_length_of_any {p : String → Bool} {i : Nat} (h : tokens[i]?.any p = true) :
    i < tokens.length := by
  obtain ⟨token, htoken, -⟩ := (Option.any_eq_true _ _).1 h
  exact (List.getElem?_eq_some_iff.1 htoken).1

/-! ## Every index is in range -/

/-- The indices at which the end of an annotation is looked for: up to the seventh token, and not
behind the last one. -/
def window (tokens : List String) : List Nat := List.range' 4 (min 6 (tokens.length - 1) - 3)

/-- The first of the indices whose token closes an annotation, if there is one. There is no result
at all if an index without a token is looked at. -/
def firstClosing? (tokens : List String) : List Nat → Option (Option Nat)
  | [] => some none
  | i :: is => do
    let token ← tokens[i]?
    if closesRemark token then some (some i) else firstClosing? tokens is

/-- Detection that allows for a missing fifth token and a missing one behind the annotation, but has
no result if it looks for the end of the annotation at an index without a token, or finds no end and
no token to report as the one that opens the annotation. -/
def scan? (tokens : List String) : Option (Option Layout) :=
  if tokens[remarkIndex]?.any opensRemark then do
    match ← firstClosing? tokens (window tokens) with
    | none => do
      let _reported ← tokens[remarkIndex]?
      some (some canonical)
    | some close =>
      some (tokens[close + 1]?.map fun next =>
        annotated close (if isIpColumn next then .displacedAge else .afterAge))
  else some (some canonical)

theorem mem_window {i : Nat} : i ∈ window tokens ↔ (4 ≤ i ∧ i ≤ 6) ∧ i < tokens.length := by
  rw [window, List.mem_range'_1]
  omega

theorem firstClosing?_eq (tokens : List String) {is : List Nat}
    (h : ∀ i ∈ is, i < tokens.length) :
    firstClosing? tokens is = some (is.find? fun i => tokens[i]?.any closesRemark) := by
  induction is with
  | nil => rfl
  | cons i is ih =>
    obtain ⟨token, htoken⟩ : ∃ token, tokens[i]? = some token :=
      ⟨_, List.getElem?_eq_getElem (h i List.mem_cons_self)⟩
    have hrest := ih fun j hj => h j (List.mem_cons_of_mem i hj)
    rw [firstClosing?, List.find?_cons, htoken, Option.any_some]
    cases hcloses : closesRemark token with
    | true => simp [hcloses]
    | false => simp [hcloses, hrest]

/-- The window leaves out indices without a token, and no annotation is closed there. -/
theorem find?_window (tokens : List String) :
    (window tokens).find? (fun i => tokens[i]?.any closesRemark) =
      closeIndices.find? fun i => tokens[i]?.any closesRemark := by
  refine Option.ext fun close => ?_
  rw [find?_closeIndices_eq_some_iff, window, List.find?_range'_eq_some, ← window, mem_window]
  simp only [Bool.not_eq_true']
  constructor
  · rintro ⟨hp, hmem, hfirst⟩
    exact ⟨hmem.1, hp, hfirst⟩
  · rintro ⟨hrange, hp, hfirst⟩
    exact ⟨hp, ⟨hrange, lt_length_of_any hp⟩, hfirst⟩

/-- No index is out of range. -/
theorem scan?_eq (tokens : List String) : scan? tokens = some (detect? tokens) := by
  have hclosing := firstClosing?_eq tokens fun i hi => (mem_window.1 hi).2
  unfold scan? detect?
  rw [hclosing, find?_window]
  split
  · next hopens =>
    obtain ⟨token, htoken, -⟩ := (Option.any_eq_true _ _).1 hopens
    rw [htoken]
    cases closeIndices.find? fun i => tokens[i]?.any closesRemark <;> rfl
  · rfl

/-! ## The outcomes -/

theorem find?_eq_some_iff_isLeast :
    closeIndices.find? (fun i => tokens[i]?.any closesRemark) = some close ↔
      IsLeast {i | ClosesAt tokens i} close := by
  rw [find?_closeIndices_eq_some_iff]
  constructor
  · rintro ⟨⟨hlow, hhigh⟩, hclose, hfirst⟩
    refine ⟨⟨hlow, hhigh, any_closesRemark_iff.1 hclose⟩, ?_⟩
    rintro i ⟨hi, -, hcloses⟩
    by_contra hlt
    have hfree := hfirst i hi (Nat.lt_of_not_le hlt)
    rw [any_closesRemark_iff.2 hcloses] at hfree
    cases hfree
  · rintro ⟨⟨hlow, hhigh, hclose⟩, hleast⟩
    refine ⟨⟨hlow, hhigh⟩, any_closesRemark_iff.2 hclose, ?_⟩
    intro i hi hlt
    rw [Bool.eq_false_iff]
    intro hcloses
    have hle : close ≤ i := hleast ⟨hi, by omega, any_closesRemark_iff.1 hcloses⟩
    omega

theorem find?_eq_none_iff :
    closeIndices.find? (fun i => tokens[i]?.any closesRemark) = none ↔
      ∀ i, ¬ ClosesAt tokens i := by
  constructor
  · rintro hnone i ⟨hlow, hhigh, hcloses⟩
    have hmem : i ∈ closeIndices := by
      have hrange : closeIndices = List.range' 4 3 := rfl
      rw [hrange, List.mem_range'_1]
      omega
    exact List.find?_eq_none.1 hnone i hmem (any_closesRemark_iff.2 hcloses)
  · intro hnone
    refine Option.eq_none_iff_forall_ne_some.2 fun close hclose => ?_
    exact hnone close (find?_eq_some_iff_isLeast.1 hclose).1

/-- No index closes an annotation, or there is a least one that does. -/
theorem not_closesAt_or_isLeast (tokens : List String) :
    (∀ i, ¬ ClosesAt tokens i) ∨ ∃ close, IsLeast {i | ClosesAt tokens i} close := by
  cases hfind : closeIndices.find? fun i => tokens[i]?.any closesRemark with
  | none => exact .inl (find?_eq_none_iff.1 hfind)
  | some close => exact .inr ⟨close, find?_eq_some_iff_isLeast.1 hfind⟩

theorem detect?_of_not_hasRemark (h : ¬ HasRemark tokens) : detect? tokens = some canonical :=
  detect?_of_not_opens (Bool.eq_false_iff.2 fun hopens => h (hasRemark_iff.1 hopens))

theorem detect?_of_not_closesAt (h : ∀ i, ¬ ClosesAt tokens i) :
    detect? tokens = some canonical := by
  rw [detect?, find?_eq_none_iff.2 h]
  exact ite_self _

theorem detect?_of_isLeast (hremark : HasRemark tokens)
    (hleast : IsLeast {i | ClosesAt tokens i} close) :
    detect? tokens = tokens[close + 1]?.map fun next =>
      annotated close (if isIpColumn next then .displacedAge else .afterAge) := by
  rw [detect?, if_pos (hasRemark_iff.2 hremark), find?_eq_some_iff_isLeast.2 hleast]

theorem eq_anchor_iff {next : String} :
    (if isIpColumn next then Anchor.displacedAge else .afterAge) = anchor ↔
      (anchor = .displacedAge ↔ next = noneMarker ∨ Address.isAddress next = true) := by
  have hcolumn :
      isIpColumn next = true ↔ next = noneMarker ∨ Address.isAddress next = true := by
    simp [isIpColumn]
  rw [← hcolumn]
  cases anchor <;> cases isIpColumn next <;> simp

theorem detect?_eq_annotated_iff_isLeast :
    detect? tokens = some (annotated close anchor) ↔
      HasRemark tokens ∧ IsLeast {i | ClosesAt tokens i} close ∧
        ∃ next, tokens[close + 1]? = some next ∧
          (anchor = .displacedAge ↔ next = noneMarker ∨ Address.isAddress next = true) := by
  simp only [detect?_eq_annotated_iff, hasRemark_iff, find?_eq_some_iff_isLeast, eq_anchor_iff]

theorem detect?_eq_none_iff :
    detect? tokens = none ↔
      HasRemark tokens ∧ ∃ close, IsLeast {i | ClosesAt tokens i} close ∧
        close + 1 = tokens.length := by
  constructor
  · intro h
    by_cases hremark : HasRemark tokens
    · rcases not_closesAt_or_isLeast tokens with hnone | ⟨close, hleast⟩
      · rw [detect?_of_not_closesAt hnone] at h
        cases h
      · obtain ⟨-, -, token, htoken, -⟩ := hleast.1
        have hlt : close < tokens.length := (List.getElem?_eq_some_iff.1 htoken).1
        rw [detect?_of_isLeast hremark hleast, Option.map_eq_none_iff,
          List.getElem?_eq_none_iff] at h
        exact ⟨hremark, close, hleast, by omega⟩
    · rw [detect?_of_not_hasRemark hremark] at h
      cases h
  · rintro ⟨hremark, close, hleast, hlast⟩
    have hnone : tokens[close + 1]? = none := List.getElem?_eq_none (Nat.le_of_eq hlast.symm)
    rw [detect?_of_isLeast hremark hleast, hnone, Option.map_none]

theorem detect?_eq_canonical_iff :
    detect? tokens = some canonical ↔ ¬ HasRemark tokens ∨ ∀ i, ¬ ClosesAt tokens i := by
  constructor
  · intro h
    by_cases hremark : HasRemark tokens
    · rcases not_closesAt_or_isLeast tokens with hnone | ⟨close, hleast⟩
      · exact .inr hnone
      · rw [detect?_of_isLeast hremark hleast] at h
        obtain ⟨_, -, hnext⟩ := Option.map_eq_some_iff.1 h
        cases hnext
    · exact .inl hremark
  · rintro (hremark | hnone)
    · exact detect?_of_not_hasRemark hremark
    · exact detect?_of_not_closesAt hnone

theorem lt_ipIndex (close : Nat) (anchor : Anchor) :
    close + 1 ≤ (annotated close anchor).ipIndex := by
  cases anchor with
  | afterAge => exact Nat.le_succ (close + 1)
  | displacedAge => exact Nat.le_refl (close + 1)

/-- Detection looks at no index without a token. The layout is annotated if an annotation opens and
there is a token behind the first one that closes it, which tells where the ip stands; there is no
layout if that first one is the last token of all; it is canonical in every other case. So no token
behind the eighth matters, and the ip stands behind the annotation. -/
theorem detect?_exact (tokens : List String) :
    scan? tokens = some (detect? tokens) ∧
    (∀ close anchor, detect? tokens = some (annotated close anchor) ↔
      HasRemark tokens ∧ IsLeast {i | ClosesAt tokens i} close ∧
        ∃ next, tokens[close + 1]? = some next ∧
          (anchor = .displacedAge ↔ next = noneMarker ∨ Address.isAddress next = true)) ∧
    (detect? tokens = none ↔
      HasRemark tokens ∧ ∃ close, IsLeast {i | ClosesAt tokens i} close ∧
        close + 1 = tokens.length) ∧
    (detect? tokens = some canonical ↔ ¬ HasRemark tokens ∨ ∀ i, ¬ ClosesAt tokens i) ∧
    (∀ tokens', tokens'.take 8 = tokens.take 8 → detect? tokens' = detect? tokens) ∧
    ∀ close anchor, detect? tokens = some (annotated close anchor) →
      close + 1 ≤ (annotated close anchor).ipIndex :=
  ⟨scan?_eq tokens, fun _ _ => detect?_eq_annotated_iff_isLeast, detect?_eq_none_iff,
    detect?_eq_canonical_iff, fun _ h => detect?_congr h,
    fun close anchor _ => lt_ipIndex close anchor⟩

/-- The tokens of a line with two of them that could close its annotation. -/
def twoClosings : List String := ["p", "1/1", "Running", "3", "(a)", "b)", "10.0.0.5", "n1", "1d"]

theorem detect?_exact_twoClosings :
    HasRemark twoClosings ∧ IsLeast {i | ClosesAt twoClosings i} 4 ∧
    detect? twoClosings = some (annotated 4 .afterAge) ∧
    detect? (twoClosings.take 8 ++ ["2d", "x)"]) = some (annotated 4 .afterAge) ∧
    4 + 1 ≤ (annotated 4 .afterAge).ipIndex := by
  have hremark : HasRemark twoClosings := ⟨"(a)", rfl, by decide⟩
  have hleast : IsLeast {i | ClosesAt twoClosings i} 4 :=
    ⟨⟨Nat.le_refl 4, by decide, "(a)", rfl, by decide⟩, fun i hi => hi.1⟩
  obtain ⟨-, hannotated, -, -, hlocal, hip⟩ := detect?_exact twoClosings
  have hdetect : detect? twoClosings = some (annotated 4 .afterAge) :=
    (hannotated 4 .afterAge).2 ⟨hremark, hleast, "b)", rfl, by decide +kernel⟩
  exact ⟨hremark, hleast, hdetect, (hlocal _ (by decide)).trans hdetect, hip 4 .afterAge hdetect⟩

end NodeHealth.Layout
