import Mathlib.Data.List.Induction
import NodeHealth.Proofs.Pod.Selection

/-!
# The identities that a list of texts gives

`given texts` is the list of the names that the texts give, each at the place where it is given
first. Collecting texts stores this list and adding texts continues it, so that the entries of a set
are known from the texts that were supplied since it was last collected anew (`supplied`), whatever
steps led to it.

* `prefix_given_append`: more texts leave the names in their places.
* `entries_step`, `entries_run`: a set that holds what some texts give still does so after a step,
  hence after any steps.
* `given_given`: the names of a set give this set.
* `entries_after`: the sets that can be reached from the empty one.
-/

namespace NodeHealth

namespace Identities

/-! ## First occurrences -/

section FirstOccurrences

variable {α : Type} [DecidableEq α] {xs : List α} {x : α}

theorem eraseDups_concat_of_mem (h : x ∈ xs) : (xs ++ [x]).eraseDups = xs.eraseDups := by
  have hnone : [x].removeAll xs = [] := by simp [List.removeAll, h]
  rw [List.eraseDups_append, hnone, List.eraseDups_nil, List.append_nil]

theorem eraseDups_concat_of_notMem (h : x ∉ xs) :
    (xs ++ [x]).eraseDups = xs.eraseDups ++ [x] := by
  have hone : [x].removeAll xs = [x] := by simp [List.removeAll, h]
  rw [List.eraseDups_append, hone]
  rfl

theorem nodup_eraseDups (xs : List α) : xs.eraseDups.Nodup := by
  induction xs using List.reverseRecOn with
  | nil => exact List.nodup_nil
  | append_singleton xs x ih =>
    by_cases h : x ∈ xs
    · rwa [eraseDups_concat_of_mem h]
    · rw [eraseDups_concat_of_notMem h, List.nodup_append]
      refine ⟨ih, by simp, ?_⟩
      intro y hy z hz hyz
      rw [List.mem_singleton.1 hz] at hyz
      exact h (hyz ▸ List.mem_eraseDups.1 hy)

theorem eraseDups_of_nodup (h : xs.Nodup) : xs.eraseDups = xs := by
  induction xs using List.reverseRecOn with
  | nil => rfl
  | append_singleton xs x ih =>
    obtain ⟨hnodup, -, hnew⟩ := List.nodup_append.1 h
    have hx : x ∉ xs := fun hmem => hnew x hmem x List.mem_cons_self rfl
    rw [eraseDups_concat_of_notMem hx, ih hnodup]

theorem filter_eraseDups (p : α → Bool) (xs : List α) :
    (xs.filter p).eraseDups = xs.eraseDups.filter p := by
  induction xs using List.reverseRecOn with
  | nil => rfl
  | append_singleton xs x ih =>
    cases hp : p x with
    | false =>
      have hnone : [x].filter p = [] := by simp [hp]
      by_cases h : x ∈ xs
      · rw [List.filter_append, hnone, List.append_nil, eraseDups_concat_of_mem h, ih]
      · rw [List.filter_append, hnone, List.append_nil, eraseDups_concat_of_notMem h,
          List.filter_append, hnone, List.append_nil, ih]
    | true =>
      have hone : [x].filter p = [x] := by simp [hp]
      by_cases h : x ∈ xs
      · have hmem : x ∈ xs.filter p := List.mem_filter.2 ⟨h, hp⟩
        rw [List.filter_append, hone, eraseDups_concat_of_mem hmem, eraseDups_concat_of_mem h, ih]
      · have hnew : x ∉ xs.filter p := fun hmem => h (List.mem_filter.1 hmem).1
        rw [List.filter_append, hone, eraseDups_concat_of_notMem hnew,
          eraseDups_concat_of_notMem h, List.filter_append, hone, ih]

/-- Elements put in front make no difference exactly if they already come first. -/
theorem eraseDups_append_eq_iff (xs ys : List α) :
    (xs ++ ys).eraseDups = ys.eraseDups ↔ xs.eraseDups <+: ys.eraseDups := by
  constructor
  · intro h
    rw [← h, List.eraseDups_append]
    exact List.prefix_append _ _
  · rintro ⟨rest, hrest⟩
    have hdisjoint := (List.nodup_append.1 (hrest ▸ nodup_eraseDups ys)).2.2
    have hfront : xs.eraseDups.filter (fun x => !xs.elem x) = [] :=
      List.filter_eq_nil_iff.2 fun x hx => by simpa using List.mem_eraseDups.1 hx
    have hback : rest.filter (fun x => !xs.elem x) = rest :=
      List.filter_eq_self.2 fun x hx => by
        simpa using fun hmem => hdisjoint x (List.mem_eraseDups.2 hmem) x hx rfl
    rw [List.eraseDups_append, List.removeAll, filter_eraseDups, ← hrest, List.filter_append,
      hfront, hback, List.nil_append]

end FirstOccurrences

/-! ## Names in the order in which they are given -/

/-- The names that a list of texts gives, each where it is given first. -/
def given (texts : List String) : List String :=
  ((texts.map Text.trim).filter (· ≠ "")).eraseDups

variable {ids : Identities} {texts more : List String} {name text : String}

theorem mem_given : name ∈ given texts ↔ Gives texts name := by
  simp [given, Gives, List.mem_eraseDups, and_comm]

/-- More texts leave the names in their places. -/
theorem prefix_given_append (texts more : List String) : given texts <+: given (texts ++ more) := by
  simp only [given, List.map_append, List.filter_append, List.eraseDups_append]
  exact List.prefix_append _ _

theorem given_concat_of_passed (h : Text.trim text = "" ∨ Text.trim text ∈ given texts) :
    given (texts ++ [text]) = given texts := by
  by_cases hblank : Text.trim text = ""
  · simp [given, hblank]
  · have hknown := List.mem_eraseDups.1 (h.resolve_left hblank)
    have hone : [Text.trim text].filter (· ≠ "") = [Text.trim text] := by simp [hblank]
    rw [given, List.map_append, List.map_singleton, List.filter_append, hone,
      eraseDups_concat_of_mem hknown, given]

theorem given_concat_of_new (h : Text.trim text ≠ "") (hnew : Text.trim text ∉ given texts) :
    given (texts ++ [text]) = given texts ++ [Text.trim text] := by
  have hunknown := mt List.mem_eraseDups.2 hnew
  have hone : [Text.trim text].filter (· ≠ "") = [Text.trim text] := by simp [h]
  rw [given, List.map_append, List.map_singleton, List.filter_append, hone,
    eraseDups_concat_of_notMem hunknown, given]

theorem nodup_given (texts : List String) : (given texts).Nodup := nodup_eraseDups _

theorem isTrimmed_of_gives (h : Gives texts name) : Chars.IsTrimmed name.toList := by
  obtain ⟨-, x, -, rfl⟩ := h
  exact Text.trim_eq_self_iff.1 (Text.trim_trim x)

/-- Names without blanks around them, none of which is empty or repeated, give themselves. -/
theorem given_of_nodup {names : List String}
    (hnames : ∀ name ∈ names, name ≠ "" ∧ Chars.IsTrimmed name.toList) (hnodup : names.Nodup) :
    given names = names := by
  have htrim : names.map Text.trim = names.map id :=
    List.map_congr_left fun name hname => Text.trim_eq_self_iff.2 (hnames name hname).2
  have hfull : names.filter (· ≠ "") = names :=
    List.filter_eq_self.2 fun name hname => decide_eq_true (hnames name hname).1
  rw [given, htrim, List.map_id, hfull, eraseDups_of_nodup hnodup]

theorem given_given (texts : List String) : given (given texts) = given texts := by
  refine given_of_nodup (fun name hname => ?_) (nodup_given texts)
  have hgives := mem_given.1 hname
  exact ⟨hgives.1, isTrimmed_of_gives hgives⟩

theorem given_eq_nil_iff : given texts = [] ↔ ∀ text ∈ texts, Text.trim text = "" := by
  rw [List.eq_nil_iff_forall_not_mem]
  simp only [mem_given, Gives]
  constructor
  · intro h text htext
    exact not_not.1 fun hne => h _ ⟨hne, text, htext, rfl⟩
  · rintro h name ⟨hne, text, htext, rfl⟩
    exact hne (h text htext)

theorem given_cons_trim : given (Text.trim name :: texts) = given (name :: texts) := by
  simp only [given, List.map_cons, Text.trim_trim]

/-- The first name is followed by the other names. -/
theorem given_cons (hname : Text.trim name = name) (hne : name ≠ "") :
    given (name :: texts) = name :: (given texts).filter (· ≠ name) := by
  have hfirst : ((name :: texts).map Text.trim).filter (· ≠ "") =
      name :: (texts.map Text.trim).filter (· ≠ "") := by simp [hname, hne]
  have hothers : ∀ x : String, (!x == name) = decide (x ≠ name) := by
    intro x
    by_cases hx : x = name <;> simp [hx]
  rw [given, hfirst, List.eraseDups_cons, filter_eraseDups, given]
  simp only [hothers]

/-- Texts between the first name and others make no difference exactly if their names, apart from
the first one, already come first among those of the others. -/
theorem given_cons_append_eq_iff (hname : Text.trim name = name) (hne : name ≠ "")
    (texts more : List String) :
    given (name :: (texts ++ more)) = given (name :: more) ↔
      (given texts).filter (· ≠ name) <+: (given more).filter (· ≠ name) := by
  have hothers : ∀ texts, (given texts).filter (· ≠ name) =
      (((texts.map Text.trim).filter (· ≠ "")).filter (· ≠ name)).eraseDups :=
    fun texts => (filter_eraseDups _ _).symm
  rw [given_cons hname hne, given_cons hname hne, List.cons.injEq, hothers, hothers, hothers,
    List.map_append, List.filter_append, List.filter_append]
  exact (and_iff_right rfl).trans (eraseDups_append_eq_iff _ _)

/-! ## Sets that hold what texts give -/

theorem entries_inj {ids ids' : Identities} : ids = ids' ↔ ids.entries = ids'.entries := by
  cases ids
  cases ids'
  exact ⟨congrArg entries, congrArg Identities.mk⟩

theorem entries_push (h : ids.entries = given texts) (text : String) :
    (ids.push text).entries = given (texts ++ [text]) := by
  have hcontains : ids.contains (Text.trim text) = true ↔ Text.trim text ∈ given texts := by
    rw [contains_iff, h]
  by_cases hpassed : Text.trim text = "" ∨ Text.trim text ∈ given texts
  · rw [push_of_passed (hpassed.imp_right hcontains.2), h, given_concat_of_passed hpassed]
  · obtain ⟨hblank, hnew⟩ := not_or.1 hpassed
    rw [push_of_new hblank (Bool.eq_false_iff.2 (mt hcontains.1 hnew)), h,
      given_concat_of_new hblank hnew]

theorem entries_extend (h : ids.entries = given texts) (more : List String) :
    (ids.extend more).entries = given (texts ++ more) := by
  induction more generalizing ids texts with
  | nil => rwa [List.append_nil]
  | cons text more ih =>
    have hstep : ids.extend (text :: more) = (ids.push text).extend more := rfl
    rw [hstep, ih (entries_push h text), List.append_assoc, List.singleton_append]

theorem entries_ofList (texts : List String) : (ofList texts).entries = given texts := by
  have hempty : empty.entries = given [] := rfl
  exact entries_extend hempty texts

/-! ## Steps -/

/-- A step on a set. -/
inductive Step where
  | push (name : String)
  | extend (names : List String)
  /-- Replaces the set by the one of the given names. -/
  | collect (names : List String)
  deriving DecidableEq, Repr

namespace Step

/-- What a step makes of a set. -/
def apply (ids : Identities) : Step → Identities
  | push name => ids.push name
  | extend names => ids.extend names
  | collect names => ofList names

/-- The texts supplied since a set was last collected, one step later. -/
def supply (texts : List String) : Step → List String
  | push name => texts ++ [name]
  | extend names => texts ++ names
  | collect names => names

/-- The step adds to the set it is taken from. -/
def Adds : Step → Prop
  | push _ | extend _ => True
  | collect _ => False

instance : DecidablePred Adds
  | push _ | extend _ => isTrue trivial
  | collect _ => isFalse id

end Step

/-- The set that steps lead to from the empty one. -/
def after (steps : List Step) : Identities := steps.foldl Step.apply empty

/-- The texts that steps supplied since the last time the set was collected, with those that were
collected then. -/
def supplied (steps : List Step) : List String := steps.foldl Step.supply []

/-- A step keeps a set that holds what the supplied texts give. -/
theorem entries_step (h : ids.entries = given texts) (step : Step) :
    (step.apply ids).entries = given (step.supply texts) := by
  cases step with
  | push name => exact entries_push h name
  | extend names => exact entries_extend h names
  | collect names => exact entries_ofList names

theorem entries_run (h : ids.entries = given texts) (steps : List Step) :
    (steps.foldl Step.apply ids).entries = given (steps.foldl Step.supply texts) := by
  induction steps generalizing ids texts with
  | nil => exact h
  | cons step steps ih => exact ih (entries_step h step)

theorem prefix_supply {step : Step} (h : step.Adds) (texts : List String) :
    texts <+: step.supply texts := by
  cases step with
  | push | extend => exact List.prefix_append _ _
  | collect => exact h.elim

theorem prefix_foldl_supply {steps : List Step} (h : ∀ step ∈ steps, step.Adds)
    (texts : List String) : texts <+: steps.foldl Step.supply texts := by
  induction steps generalizing texts with
  | nil => exact List.prefix_rfl
  | cons step steps ih =>
    obtain ⟨hstep, hsteps⟩ := List.forall_mem_cons.1 h
    exact (prefix_supply hstep texts).trans (ih hsteps _)

/-- Whatever steps lead to it, a set holds the names that the texts supplied since it was last
collected give, in the order in which they give them. So no entry is empty, padded or repeated, the
set contains what some text gives and nothing else, steps that add leave the entries in their
places, and collecting the entries gives the same set. -/
theorem entries_after (steps : List Step) :
    (after steps).entries = given (supplied steps) ∧
    (∀ entry ∈ (after steps).entries, entry ≠ "" ∧ Chars.IsTrimmed entry.toList) ∧
    (after steps).entries.Nodup ∧
    (∀ name, (after steps).contains name = true ↔
      name ≠ "" ∧ ∃ text ∈ supplied steps, Text.trim text = name) ∧
    (∀ more : List Step, (∀ step ∈ more, step.Adds) →
      (after steps).entries <+: (after (steps ++ more)).entries) ∧
    ofList (after steps).entries = after steps := by
  have hempty : empty.entries = given [] := rfl
  have hentries : ∀ steps, (after steps).entries = given (supplied steps) :=
    fun steps => entries_run hempty steps
  refine ⟨hentries steps, ?_, ?_, ?_, ?_, ?_⟩
  · intro entry hentry
    rw [hentries, mem_given] at hentry
    exact ⟨hentry.1, isTrimmed_of_gives hentry⟩
  · rw [hentries]
    exact nodup_given _
  · intro name
    rw [contains_iff, hentries, mem_given, Gives]
  · intro more hadds
    obtain ⟨behind, hbehind⟩ := prefix_foldl_supply hadds (supplied steps)
    have hsupplied : supplied (steps ++ more) = supplied steps ++ behind := by
      rw [hbehind, supplied, List.foldl_append, supplied]
    rw [hentries, hentries, hsupplied]
    exact prefix_given_append _ _
  · have hsame : (ofList (after steps).entries).entries = (after steps).entries := by
      rw [entries_ofList, hentries, given_given]
    exact congrArg Identities.mk hsame

/-- Steps that supply padded, blank and repeated names. -/
def sampleSteps : List Step :=
  [.push " n1 ", .extend ["", "n2", "n1"], .collect ["\tx", "y\u3000", " ", "x"], .push "y"]

theorem entries_after_sampleSteps :
    (after sampleSteps).entries = ["x", "y"] ∧
    given (supplied sampleSteps) = ["x", "y"] ∧
    (("y" : String) ≠ "" ∧ Chars.IsTrimmed "y".toList) ∧
    (after sampleSteps).contains "y\u3000" = false ∧
    (after sampleSteps).entries <+: (after (sampleSteps ++ [.extend ["z ", "x"]])).entries := by
  have hentries : (after sampleSteps).entries = ["x", "y"] := by decide +kernel
  obtain ⟨hgiven, hclean, -, hcontains, hadds, -⟩ := entries_after sampleSteps
  refine ⟨hentries, ?_, ?_, ?_, ?_⟩
  · rw [← hgiven, hentries]
  · exact hclean "y" (by rw [hentries]; decide)
  · exact Bool.eq_false_iff.2 fun h => absurd ((hcontains _).1 h).2 (by decide +kernel)
  · exact hadds [.extend ["z ", "x"]] (by decide)

end Identities

end NodeHealth
