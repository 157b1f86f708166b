import NodeHealth.Config.Document

/-!
# When a configuration is accepted

A configuration that was read is judged by its timeout first and then by its thresholds
(`Config.Judged`), and nothing is accepted that fails one of the two.

* `ofToml_eq_iff`: what reading a document comes to, given what it says.
* `ofToml_eq_error_iff`: when there is no configuration, and with which error.
-/

namespace NodeHealth

theorem KubectlConfig.limit_eq (k : KubectlConfig) :
    k.limit =
      match Duration.ofText? k.timeout with
      | some limit => .ok limit
      | none => .error (.invalidDuration k.timeout) := by
  -- the equation that `rw` would derive takes the reader of durations apart
  delta KubectlConfig.limit
  cases Duration.ofText? k.timeout <;> simp only

namespace Config

/-- What a configuration that was read comes to. -/
inductive Judged (c : Config) : Except ConfigError Config → Prop
  | accepted {limit : Duration} (duration : Duration.ofText? c.kubectl.timeout = some limit)
      (ordered : c.thresholds.warn ≤ c.thresholds.crit) : Judged c (.ok c)
  | timeout (noDuration : Duration.ofText? c.kubectl.timeout = none) :
      Judged c (.error (.invalidDuration c.kubectl.timeout))
  | thresholds {limit : Duration} (duration : Duration.ofText? c.kubectl.timeout = some limit)
      (inverted : c.thresholds.crit < c.thresholds.warn) :
      Judged c (.error (.invertedThresholds c.thresholds))

/-- What a document says without being judged. -/
def said? (text : String) : Option Config := (Toml.Table.ofText? text).bind ofTable?

/-- A document gives no configuration: it is none of the expected form, or says something that does
not hold together. -/
inductive Refuses (text : String) : ConfigError → Prop
  | malformed (silent : said? text = none) : Refuses text .malformed
  | timeout {c : Config} (said : said? text = some c)
      (noDuration : Duration.ofText? c.kubectl.timeout = none) :
      Refuses text (.invalidDuration c.kubectl.timeout)
  | thresholds {c : Config} {limit : Duration} (said : said? text = some c)
      (duration : Duration.ofText? c.kubectl.timeout = some limit)
      (inverted : c.thresholds.crit < c.thresholds.warn) :
      Refuses text (.invertedThresholds c.thresholds)

theorem validate_eq (c : Config) :
    c.validate =
      match Duration.ofText? c.kubectl.timeout with
      | none => .error (.invalidDuration c.kubectl.timeout)
      | some _ =>
        if c.thresholds.crit < c.thresholds.warn then .error (.invertedThresholds c.thresholds)
        else .ok () := by
  rw [validate, KubectlConfig.limit_eq]
  cases Duration.ofText? c.kubectl.timeout with
  | none => rfl
  | some limit => simp [bind, Except.bind, Thresholds.isInverted]

theorem ofToml_eq (text : String) :
    ofToml text =
      match said? text with
      | none => .error .malformed
      | some c => c.validate.map fun _ => c := rfl

theorem validate_map_eq_iff {c : Config} {r : Except ConfigError Config} :
    (c.validate.map fun _ => c) = r ↔ Judged c r := by
  rw [validate_eq]
  constructor
  · rintro rfl
    cases hlimit : Duration.ofText? c.kubectl.timeout with
    | none => exact .timeout hlimit
    | some limit =>
      by_cases hinverted : c.thresholds.crit < c.thresholds.warn
      · simp only [if_pos hinverted]
        exact .thresholds hlimit hinverted
      · simp only [if_neg hinverted]
        exact .accepted hlimit (UInt32.not_lt.1 hinverted)
  · intro h
    cases h with
    | accepted duration ordered =>
      simp only [duration, if_neg (UInt32.not_lt.2 ordered)]
      rfl
    | timeout noDuration =>
      simp only [noDuration]
      rfl
    | thresholds duration inverted =>
      simp only [duration, if_pos inverted]
      rfl

/-- What reading a document comes to, given what it says. -/
theorem ofToml_eq_iff {text : String} {c : Config} (h : said? text = some c)
    {r : Except ConfigError Config} : ofToml text = r ↔ Judged c r := by
  rw [ofToml_eq, h]
  exact validate_map_eq_iff

theorem ofToml_eq_error_iff {text : String} {e : ConfigError} :
    ofToml text = .error e ↔ Refuses text e := by
  constructor
  · intro h
    cases hsaid : said? text with
    | none =>
      rw [ofToml_eq, hsaid] at h
      cases h
      exact .malformed hsaid
    | some c =>
      cases (ofToml_eq_iff hsaid).1 h with
      | timeout noDuration => exact .timeout hsaid noDuration
      | thresholds duration inverted => exact .thresholds hsaid duration inverted
  · intro h
    cases h with
    | malformed silent => rw [ofToml_eq, silent]
    | timeout said noDuration => exact (ofToml_eq_iff said).2 (.timeout noDuration)
    | thresholds said duration inverted =>
      exact (ofToml_eq_iff said).2 (.thresholds duration inverted)

theorem limit_of_ofToml {text : String} {c : Config} (h : ofToml text = .ok c) :
    ∃ limit, c.kubectl.limit = .ok limit := by
  cases hsaid : said? text with
  | none =>
    rw [ofToml_eq, hsaid] at h
    cases h
  | some c' =>
    cases (ofToml_eq_iff hsaid).1 h with
    | accepted duration => exact ⟨_, by rw [KubectlConfig.limit_eq, duration]⟩

end Config

end NodeHealth
