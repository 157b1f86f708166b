import NodeHealth.Proofs.Run.Failure

/-!
# Where a listing comes from

The text that a pod check judges is either captured output, which has to be well-formed UTF-8, or
what the program that lists pods printed, in which ill-formed parts are replaced.

* `Machine.Holds`, `Machine.captured_eq_ok_iff`: captured output.
* `KubectlConfig.list_eq_ok_iff`: the printed listing.
* `PodRequest.Lists`, `PodRequest.listing_eq_ok_iff`: the listing of a request.
-/

namespace NodeHealth

theorem mapError_eq_ok_iff {ε ε' α : Type} {x : Except ε α} {f : ε → ε'} {a : α} :
    x.mapError f = .ok a ↔ x = .ok a := by
  cases x <;> simp [Except.mapError]

namespace Machine

/-- The bytes of captured output: standard input for `-`, and else the content of a file. -/
inductive Holds (m : Machine) (path : String) : Bytes → Prop
  | standardInput (dash : Path.isDash path = true) : Holds m path m.stdin
  | file {bytes : Bytes} (noDash : Path.isDash path = false) (answer : m.read path = .ok bytes) :
      Holds m path bytes

variable {m : Machine} {path : String}

theorem textOf_eq_ok_iff {bytes : Bytes} {text : String} :
    textOf bytes = .ok text ↔ Utf8.decode? bytes = some text := by
  unfold textOf
  cases Utf8.decode? bytes <;> simp

theorem readText_of_read {bytes : Bytes} (h : m.read path = .ok bytes) :
    m.readText path = textOf bytes := by
  rw [readText, h]
  rfl

theorem readText_eq_ok_iff {text : String} :
    m.readText path = .ok text ↔
      ∃ bytes, m.read path = .ok bytes ∧ Utf8.decode? bytes = some text := by
  cases hread : m.read path with
  | error cause => simp [readText, hread, Except.bind]
  | ok bytes => simp [readText_of_read hread, textOf_eq_ok_iff]

/-- Captured output has a text if its bytes are well formed, and this is the text they encode. -/
theorem captured_eq_ok_iff {text : String} :
    m.captured path = .ok text ↔ ∃ bytes, m.Holds path bytes ∧ Utf8.decode? bytes = some text := by
  unfold captured
  constructor
  · intro h
    split at h
    · next hdash =>
      exact ⟨_, .standardInput hdash, textOf_eq_ok_iff.1 (mapError_eq_ok_iff.1 h)⟩
    · next hdash =>
      obtain ⟨bytes, hread, hutf8⟩ := readText_eq_ok_iff.1 (mapError_eq_ok_iff.1 h)
      exact ⟨bytes, .file (Bool.eq_false_iff.2 hdash) hread, hutf8⟩
  · rintro ⟨bytes, hholds, hutf8⟩
    cases hholds with
    | standardInput dash =>
      rw [if_pos dash]
      exact mapError_eq_ok_iff.2 (textOf_eq_ok_iff.2 hutf8)
    | file noDash answer =>
      rw [if_neg (Bool.eq_false_iff.1 noDash)]
      exact mapError_eq_ok_iff.2 (readText_eq_ok_iff.2 ⟨bytes, answer, hutf8⟩)

end Machine

/-- The program that lists pods gives a listing if it exits with zero in time, whatever it
prints. -/
theorem KubectlConfig.list_eq_ok_iff {k : KubectlConfig} {m : Machine} {text : String} :
    k.list m = .ok text ↔ ∃ limit stdout stderr, k.limit = .ok limit ∧
      m.execute k.binary k.listArgs limit = .finished (.code 0) stdout stderr ∧
        text = Utf8.lossy stdout := by
  cases hlimit : k.limit with
  | error e => simp [list, hlimit, Except.mapError, bind, Except.bind]
  | ok limit =>
    rw [list_of_limit hlimit]
    constructor
    · intro h
      split at h
      · cases h
      · cases h
      · next status stdout stderr hexecute =>
        split at h
        · next hstatus =>
          cases h
          rw [eq_of_beq hstatus] at hexecute
          exact ⟨limit, stdout, stderr, rfl, hexecute, rfl⟩
        · cases h
    · rintro ⟨limit', stdout, stderr, hsame, hexecute, rfl⟩
      cases hsame
      rw [hexecute]
      rfl

namespace PodRequest

/-- The text that a request leads to: that of captured output if it names some, and else that of
what the program that lists pods printed. -/
inductive Lists (r : PodRequest) (m : Machine) (k : KubectlConfig) : String → Prop
  | captured {path text : String} {bytes : Bytes} (given : r.input = some path)
      (holds : m.Holds path bytes) (utf8 : Utf8.decode? bytes = some text) : Lists r m k text
  | printed {limit : Duration} {stdout stderr : Bytes} (live : r.input = none)
      (timeout : k.limit = .ok limit)
      (success : m.execute k.binary (r.listingConfig k).listArgs limit =
        .finished (.code 0) stdout stderr) : Lists r m k (Utf8.lossy stdout)

variable {r : PodRequest} {m : Machine} {k : KubectlConfig} {text : String}

theorem listing_eq_ok_iff : r.listing m k = .ok text ↔ r.Lists m k text := by
  cases hinput : r.input with
  | some path =>
    rw [listing_of_input hinput, Machine.captured_eq_ok_iff]
    constructor
    · rintro ⟨bytes, hholds, hutf8⟩
      exact .captured hinput hholds hutf8
    · intro h
      cases h with
      | captured given holds utf8 =>
        rw [hinput] at given
        cases given
        exact ⟨_, holds, utf8⟩
      | printed live => rw [hinput] at live; cases live
  | none =>
    rw [listing_of_no_input hinput, KubectlConfig.list_eq_ok_iff, limit_listingConfig,
      binary_listingConfig]
    constructor
    · rintro ⟨limit, stdout, stderr, hlimit, hexecute, rfl⟩
      exact .printed hinput hlimit hexecute
    · intro h
      cases h with
      | captured given => rw [hinput] at given; cases given
      | printed _ timeout success => exact ⟨_, _, _, timeout, success, rfl⟩

end PodRequest

end NodeHealth
