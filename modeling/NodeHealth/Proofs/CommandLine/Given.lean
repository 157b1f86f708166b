import NodeHealth.CommandLine.Invocation
import NodeHealth.Proofs.Text.Separated

/-!
# What a command line gives

A command line gives values to flags, in front of the command and behind it. The value of a flag is
read late, when the next flag or the end of the line settles it, so `Takes` follows the reading
argument by argument and only the settings that are settled in the end are compared.

* `Flag.Written`: the ways to write a flag with its value.
* `takes_of_written`, `takes_of_gives`: one flag, and a sequence of flags.
* `asked`, `ofArgs_of_gives`: what a command line asks for that gives flags on both sides of the
  command.
* `ofArgs_config`, `ofArgs_format`: a flag of all commands says the same on either side.
-/

namespace NodeHealth

namespace Command

theorem ofName?_name (command : Command) : ofName? command.name = some command := by
  cases command <;> decide

theorem ofName?_eq_none {arg : String} (h : arg.toList.head? = some '-') : ofName? arg = none := by
  unfold ofName?
  rw [List.find?_eq_none]
  intro command _ hname
  rw [← eq_of_beq hname] at h
  revert h
  cases command <;> decide

theorem name_ne_help (command : Command) : command.name ≠ Invocation.helpName := by
  cases command <;> decide

end Command

namespace Flag

variable {scope : Option Command} {flag : Flag}

/-- The flags in front of the command are flags of every command. -/
theorem mem_available (scope : Option Command) (h : flag ∈ available none) :
    flag ∈ available scope := by
  revert flag
  rcases scope with _ | _ | _ | _ | _ <;> decide

theorem ofLong?_long (h : flag ∈ available scope) : ofLong? scope flag.long = some flag := by
  revert flag
  rcases scope with _ | _ | _ | _ | _ <;> decide

theorem ofShort?_short (h : flag ∈ available scope) {c : Char} (hc : flag.short? = some c) :
    ofShort? scope c = some flag := by
  have hall : ∀ flag ∈ available scope,
      flag.short?.all (fun c => ofShort? scope c == some flag) = true := by
    rcases scope with _ | _ | _ | _ | _ <;> decide
  have hsame := hall flag h
  rw [hc] at hsame
  exact eq_of_beq hsame

theorem equals_notMem_long (flag : Flag) : '=' ∉ flag.long.toList := by
  cases flag <;> decide

theorem long_ne_nil (flag : Flag) : flag.long.toList ≠ [] := by
  cases flag <;> decide

theorem short_ne_dash {c : Char} (hc : flag.short? = some c) : c ≠ '-' := by
  rintro rfl
  revert hc
  cases flag <;> decide

/-- A text that is taken for the value of the flag in front of it: it does not begin with a dash, or
is nothing but one. -/
def IsPlain (text : String) : Prop := text = "-" ∨ text.toList.head? ≠ some '-'

/-- The ways to write a flag with its value: by its long or short name, with the value behind it as
an argument of its own or attached to it. -/
inductive Written (flag : Flag) (text : String) : List String → Prop
  | long (plain : IsPlain text) : Written flag text ["--" ++ flag.long, text]
  | longAttached : Written flag text ["--" ++ flag.long ++ "=" ++ text]
  | short {c : Char} (name : flag.short? = some c) (plain : IsPlain text) :
      Written flag text [String.ofList ['-', c], text]
  | shortAttached {c : Char} (name : flag.short? = some c) :
      Written flag text [String.ofList ('-' :: c :: '=' :: text.toList)]
  | shortJoined {c d : Char} {rest : List Char} (name : flag.short? = some c)
      (some : text.toList = d :: rest) (noSign : d ≠ '=') :
      Written flag text [String.ofList ('-' :: c :: d :: rest)]

end Flag

namespace Invocation

/-- Flags are given, one after another, and change the settings. -/
inductive Gives (scope : Option Command) : Settings → List String → Settings → Prop
  | nothing (s : Settings) : Gives scope s [] s
  | value {s s' t : Settings} {flag : Flag} {text : String} {words args : List String}
      (available : flag ∈ Flag.available scope) (takesValue : flag.takesValue = true)
      (written : flag.Written text words) (set : s.set flag text = .ok s')
      (rest : Gives scope s' args t) : Gives scope s (words ++ args) t
  | verbose {s t : Settings} {word : String} {args : List String}
      (written : word = "--verbose" ∨ word = "-v") (once : s.verbose = false)
      (rest : Gives scope { s with verbose := true } args t) : Gives scope s (word :: args) t

theorem Gives.of_written {scope : Option Command} {s s' : Settings} {flag : Flag} {text : String}
    {words : List String} (hflag : flag ∈ Flag.available scope) (hvalue : flag.takesValue = true)
    (hwords : flag.Written text words) (hset : s.set flag text = .ok s') :
    Gives scope s words s' := by
  have h := Gives.value hflag hvalue hwords hset (.nothing s')
  rwa [List.append_nil] at h

theorem Gives.append {scope : Option Command} {s t u : Settings} {args args' : List String}
    (h : Gives scope s args t) (h' : Gives scope t args' u) :
    Gives scope s (args ++ args') u := by
  induction h with
  | nothing => exact h'
  | value available takesValue written set _ ih =>
    rw [List.append_assoc]
    exact .value available takesValue written set (ih h')
  | verbose written once _ ih => exact .verbose written once (ih h')

/-! ## Single arguments -/

section Argument

variable {scope : Option Command} {p : Progress} {s s' : Settings} {flag : Flag} {text : String}

theorem await_eq (hp : p.settle = .ok s) :
    await p flag = .ok { settings := s, pending := .awaiting flag } := by
  unfold await
  rw [hp]
  rfl

theorem attach_eq (hp : p.settle = .ok s) (hset : s.set flag text = .ok s') :
    attach p flag text = .ok { settings := s' } := by
  unfold attach
  rw [hp]
  simp [bind, Except.bind, hset, Except.mapError]

theorem toList_long (flag : Flag) :
    ("--" ++ flag.long).toList = '-' :: '-' :: flag.long.toList := by simp

theorem toList_longAttached (flag : Flag) (text : String) :
    ("--" ++ flag.long ++ "=" ++ text).toList =
      '-' :: '-' :: (flag.long.toList ++ '=' :: text.toList) := by simp

theorem argument_long (hflag : flag ∈ Flag.available scope) (hvalue : flag.takesValue = true)
    (hp : p.settle = .ok s) :
    argument scope p ("--" ++ flag.long) = .ok { settings := s, pending := .awaiting flag } := by
  have hcut : Chars.cut? (· == '=') flag.long.toList = none :=
    Chars.cut?_eq_none flag.equals_notMem_long
  unfold argument
  rw [toList_long]
  simp only [longFlag, hcut, String.ofList_toList, Flag.ofLong?_long hflag, hvalue]
  exact await_eq hp

theorem argument_longAttached (hflag : flag ∈ Flag.available scope)
    (hvalue : flag.takesValue = true) (hp : p.settle = .ok s) (hset : s.set flag text = .ok s') :
    argument scope p ("--" ++ flag.long ++ "=" ++ text) = .ok { settings := s' } := by
  have hcut : Chars.cut? (· == '=') (flag.long.toList ++ '=' :: text.toList) =
      some (flag.long.toList, text.toList) :=
    Chars.cut?_append_cons text.toList flag.equals_notMem_long
  unfold argument
  rw [toList_longAttached]
  simp only [longFlag, hcut, String.ofList_toList, Flag.ofLong?_long hflag, hvalue]
  exact attach_eq hp hset

/-- An argument with one dash is read as flags with short names. -/
theorem argument_dash {c : Char} (hc : c ≠ '-') (rest : List Char) :
    argument scope p (String.ofList ('-' :: c :: rest)) = shortFlags scope p (c :: rest) := by
  unfold argument
  rw [String.toList_ofList]
  split
  · next h =>
    simp only [List.cons.injEq, true_and] at h
    exact absurd h.1 hc
  · next h =>
    simp only [List.cons.injEq, true_and] at h
    rw [h.1, h.2]
  · next h => exact absurd rfl (h c rest)
  · next h _ => exact absurd rfl (h c rest)

theorem argument_short {c : Char} (hflag : flag ∈ Flag.available scope)
    (hvalue : flag.takesValue = true) (hc : flag.short? = some c) (hp : p.settle = .ok s) :
    argument scope p (String.ofList ['-', c]) =
      .ok { settings := s, pending := .awaiting flag } := by
  rw [argument_dash (Flag.short_ne_dash hc)]
  simp only [shortFlags, Flag.ofShort?_short hflag hc, hvalue, if_true]
  exact await_eq hp

theorem argument_shortAttached {c : Char} (hflag : flag ∈ Flag.available scope)
    (hvalue : flag.takesValue = true) (hc : flag.short? = some c) (hp : p.settle = .ok s)
    (hset : s.set flag text = .ok s') :
    argument scope p (String.ofList ('-' :: c :: '=' :: text.toList)) =
      .ok { settings := s' } := by
  rw [argument_dash (Flag.short_ne_dash hc)]
  simp only [shortFlags, Flag.ofShort?_short hflag hc, hvalue, if_true, String.ofList_toList]
  exact attach_eq hp hset

theorem argument_shortJoined {c d : Char} {rest : List Char} (hflag : flag ∈ Flag.available scope)
    (hvalue : flag.takesValue = true) (hc : flag.short? = some c) (htext : text.toList = d :: rest)
    (hd : d ≠ '=') (hp : p.settle = .ok s) (hset : s.set flag text = .ok s') :
    argument scope p (String.ofList ('-' :: c :: d :: rest)) = .ok { settings := s' } := by
  have hword : String.ofList (d :: rest) = text := by rw [← htext, String.ofList_toList]
  rw [argument_dash (Flag.short_ne_dash hc)]
  simp only [shortFlags, Flag.ofShort?_short hflag hc, hvalue, if_true]
  split
  · next h => cases h
  · next h =>
    simp only [List.cons.injEq] at h
    exact absurd h.1 hd
  · rw [hword]
    exact attach_eq hp hset

/-- The argument behind a flag that awaits its value is this value. -/
theorem argument_awaited (hplain : Flag.IsPlain text) :
    argument scope { settings := s, pending := .awaiting flag } text =
      .ok { settings := s, pending := .held flag text } := by
  unfold argument
  rcases hplain with rfl | hplain
  · rfl
  split
  · next h => exact absurd (by rw [h]; rfl) hplain
  · next h => exact absurd (by rw [h]; rfl) hplain
  · next h _ _ => cases h; rfl
  · next h => exact absurd rfl (h flag)

theorem argument_verbose {word : String} (hword : word = "--verbose" ∨ word = "-v")
    (hp : p.settle = .ok s) (honce : s.verbose = false) :
    argument scope p word = .ok { settings := { s with verbose := true } } := by
  have hverbose : Flag.verbose ∈ Flag.available scope := Flag.mem_available scope (by decide)
  have hswitch : switch scope p .verbose = .ok { settings := { s with verbose := true } } := by
    unfold switch
    rw [hp]
    simp [bind, Except.bind, Settings.has, honce]
  rcases hword with rfl | rfl
  · have hlong : Flag.ofLong? scope "verbose" = some .verbose := Flag.ofLong?_long hverbose
    show longFlag scope p "verbose".toList = _
    have hcut : Chars.cut? (· == '=') "verbose".toList = none := by decide
    simp only [longFlag, hcut, String.ofList_toList, hlong, Flag.takesValue, hswitch]
  · show shortFlags scope p ['v'] = _
    simp [shortFlags, Flag.ofShort?_short hverbose rfl, Flag.takesValue, hswitch, Except.bind]

end Argument

/-! ## Runs of arguments -/

/-- Arguments of which none is a command or ends the flags are read, one after another. -/
inductive Takes (scope : Option Command) : Progress → List String → Progress → Prop
  | nothing (p : Progress) : Takes scope p [] p
  | more {p p' p'' : Progress} {arg : String} {args : List String} (noEnd : arg ≠ "--")
      (noCommand : p.isAwaiting = true ∨ arg.toList.head? = some '-')
      (read : argument scope p arg = .ok p') (rest : Takes scope p' args p'') :
      Takes scope p (arg :: args) p''

variable {scope : Option Command} {command : Command} {p p' p'' : Progress}
  {s s' t : Settings} {args args' : List String}

theorem Takes.append (h : Takes scope p args p') (h' : Takes scope p' args' p'') :
    Takes scope p (args ++ args') p'' := by
  induction h with
  | nothing => exact h'
  | more noEnd noCommand read _ ih => exact .more noEnd noCommand read (ih h')

theorem readInner_of_takes (h : Takes (some command) p args p') (rest : List String) :
    readInner command p (args ++ rest) = readInner command p' rest := by
  induction h with
  | nothing => rfl
  | more noEnd _ read _ ih =>
    rw [List.cons_append, readInner, if_neg noEnd, read]
    exact ih

theorem readOuter_of_takes (h : Takes none p args p') (rest : List String) :
    readOuter p (args ++ rest) = readOuter p' rest := by
  induction h with
  | nothing => rfl
  | @more p _ p'' arg args noEnd noCommand read _ ih =>
    have hread : ((argument none p arg).bind fun p => readOuter p (args ++ rest)) =
        readOuter p'' rest := by
      rw [read]
      exact ih
    rw [List.cons_append, readOuter]
    rcases noCommand with hawaiting | hdash
    · simpa [hawaiting, noEnd] using hread
    · have hhelp : arg ≠ helpName := by
        rintro rfl
        revert hdash
        decide
      simpa [hhelp, Command.ofName?_eq_none hdash, noEnd] using hread

/-- The progress has come to these settings, and the next argument is not the value of a flag. -/
structure Settles (p : Progress) (s : Settings) : Prop where
  settle : p.settle = .ok s
  ready : p.isAwaiting = false

/-- A flag is no command and does not end the flags. -/
theorem Takes.dashed {arg : String} {c : Char} {rest : List Char}
    (h : arg.toList = '-' :: c :: rest) (hmore : c ≠ '-' ∨ rest ≠ [])
    (hread : argument scope p arg = .ok p') (htakes : Takes scope p' args p'') :
    Takes scope p (arg :: args) p'' := by
  refine .more ?_ (.inr (by rw [h]; rfl)) hread htakes
  rintro rfl
  simp at h
  simp [← h.1, ← h.2] at hmore

/-- A flag and its value are read, in whatever way they are written. -/
theorem takes_of_written {flag : Flag} {text : String} {words : List String}
    (h : flag.Written text words) (hflag : flag ∈ Flag.available scope)
    (hvalue : flag.takesValue = true) (hset : s.set flag text = .ok s') (hp : Settles p s) :
    ∃ p', Takes scope p words p' ∧ Settles p' s' := by
  have hattached : Settles { settings := s' } s' := ⟨rfl, rfl⟩
  have hheld : Settles { settings := s, pending := .held flag text } s' :=
    ⟨by simp [Progress.settle, hset, Except.mapError], rfl⟩
  have hawaited : Flag.IsPlain text → Takes scope { settings := s, pending := .awaiting flag }
      [text] { settings := s, pending := .held flag text } := by
    intro hplain
    have hend : text ≠ "--" := by
      rintro rfl
      revert hplain
      unfold Flag.IsPlain
      decide
    exact .more hend (.inl rfl) (argument_awaited hplain) (.nothing _)
  cases h with
  | long plain =>
    exact ⟨_, .dashed (toList_long flag) (.inr flag.long_ne_nil)
      (argument_long hflag hvalue hp.settle) (hawaited plain), hheld⟩
  | longAttached =>
    exact ⟨_, .dashed (toList_longAttached flag text) (.inr (by simp))
      (argument_longAttached hflag hvalue hp.settle hset) (.nothing _), hattached⟩
  | short name plain =>
    exact ⟨_, .dashed String.toList_ofList (.inl (Flag.short_ne_dash name))
      (argument_short hflag hvalue name hp.settle) (hawaited plain), hheld⟩
  | shortAttached name =>
    exact ⟨_, .dashed String.toList_ofList (.inl (Flag.short_ne_dash name))
      (argument_shortAttached hflag hvalue name hp.settle hset) (.nothing _), hattached⟩
  | shortJoined name some noSign =>
    exact ⟨_, .dashed String.toList_ofList (.inl (Flag.short_ne_dash name))
      (argument_shortJoined hflag hvalue name some noSign hp.settle hset) (.nothing _),
      hattached⟩

/-- Flags that are given one after another are read to the settings that they give. -/
theorem takes_of_gives (h : Gives scope s args t) (hp : Settles p s) :
    ∃ p', Takes scope p args p' ∧ Settles p' t := by
  induction h generalizing p with
  | nothing => exact ⟨p, .nothing p, hp⟩
  | value available takesValue written set _ ih =>
    obtain ⟨p', htakes, hp'⟩ := takes_of_written written available takesValue set hp
    obtain ⟨p'', htakes', hp''⟩ := ih hp'
    exact ⟨p'', htakes.append htakes', hp''⟩
  | @verbose s _ word _ written once _ ih =>
    obtain ⟨p', htakes, hp'⟩ := ih (p := { settings := { s with verbose := true } }) ⟨rfl, rfl⟩
    refine ⟨p', .more ?_ (.inr ?_) (argument_verbose written hp.settle once) htakes, hp'⟩
    · rcases written with rfl | rfl <;> decide
    · rcases written with rfl | rfl <;> decide

/-! ## Command lines -/

theorem set_config {path : String} (h : s.config = none) (hpath : path ≠ "") :
    s.set .config path = .ok { s with config := some path } := by
  simp [Settings.set, Settings.has, Settings.path, h, hpath, Except.map]

theorem set_format (h : s.format = none) (f : Format) :
    s.set .format f.name = .ok { s with format := some f } := by
  have hformat : Settings.formatOf f.name = .ok f := by cases f <;> decide
  simp [Settings.set, Settings.has, hformat, h, Except.map]

theorem readOuter_command (hp : p.isAwaiting = false) (args : List String) :
    readOuter p (command.name :: args) =
      (readInner command {} args).bind fun inner =>
        p.settle.bind fun outer => .ok (command, inner.completedBy outer) := by
  rw [readOuter]
  simp [hp, Command.name_ne_help, Command.ofName?_name]
  rfl

/-- What a command is asked by the settings behind it and those in front of it. Configuration, form
and verbosity may as well be given in front of the command, where they count if they are not given
behind it. -/
def asked (command : Command) (inner outer : Settings) : Invocation where
  task := taskOf inner command
  config := inner.config <|> outer.config
  format := (inner.format <|> outer.format).getD .text
  verbose := inner.verbose || outer.verbose

section Sides

variable {front behind : List String} {outer inner : Settings}
  (hfront : Gives none {} front outer) (hbehind : Gives (some command) {} behind inner)
include hfront hbehind

/-- A command line that gives flags in front of a command and behind it is understood. -/
theorem ofArgs_of_gives :
    ofArgs (front ++ command.name :: behind) = .ok (asked command inner outer) := by
  have hstart : Settles {} {} := ⟨rfl, rfl⟩
  obtain ⟨p, htakes, hp⟩ := takes_of_gives hfront hstart
  obtain ⟨q, htakes', hq⟩ := takes_of_gives hbehind hstart
  have hinner : readInner command {} behind = .ok inner := by
    have hread := readInner_of_takes htakes' []
    rwa [List.append_nil, readInner, hq.settle] at hread
  unfold ofArgs
  rw [readOuter_of_takes htakes, readOuter_command hp.ready, hinner, hp.settle]
  cases command <;> rfl

/-- One more flag, if it may stand in front of the command, may be given on either side. -/
theorem ofArgs_either_side {flag : Flag} {text : String} {words : List String}
    {outer' inner' : Settings} (hflag : flag ∈ Flag.available none)
    (hvalue : flag.takesValue = true) (hwords : flag.Written text words)
    (houter : outer.set flag text = .ok outer') (hinner : inner.set flag text = .ok inner') :
    ofArgs (front ++ words ++ command.name :: behind) = .ok (asked command inner outer') ∧
      ofArgs (front ++ command.name :: (behind ++ words)) =
        .ok (asked command inner' outer) := by
  have hfront' := hfront.append (.of_written hflag hvalue hwords houter)
  have hbehind' := hbehind.append
    (.of_written (Flag.mem_available (some command) hflag) hvalue hwords hinner)
  exact ⟨ofArgs_of_gives hfront' hbehind, ofArgs_of_gives hfront hbehind'⟩

/-- A configuration that is named once, in front of the command or behind it, is that of the
check. -/
theorem ofArgs_config {path : String} {words : List String} (hpath : path ≠ "")
    (hwords : Flag.config.Written path words) (houter : outer.config = none)
    (hinner : inner.config = none) :
    let i : Invocation := { asked command inner outer with config := some path }
    ofArgs (front ++ words ++ command.name :: behind) = .ok i ∧
      ofArgs (front ++ command.name :: (behind ++ words)) = .ok i := by
  intro i
  obtain ⟨hbefore, hafter⟩ := ofArgs_either_side hfront hbehind
    (by decide) rfl hwords (set_config houter hpath) (set_config hinner hpath)
  constructor
  · rw [hbefore, asked, hinner]
    rfl
  · rw [hafter]
    cases command <;> rfl

/-- A form that is named once, in front of the command or behind it, is that of the report. -/
theorem ofArgs_format {f : Format} {words : List String} (hwords : Flag.format.Written f.name words)
    (houter : outer.format = none) (hinner : inner.format = none) :
    let i : Invocation := { asked command inner outer with format := f }
    ofArgs (front ++ words ++ command.name :: behind) = .ok i ∧
      ofArgs (front ++ command.name :: (behind ++ words)) = .ok i := by
  intro i
  obtain ⟨hbefore, hafter⟩ := ofArgs_either_side hfront hbehind
    (by decide) rfl hwords (set_format houter f) (set_format hinner f)
  constructor
  · rw [hbefore, asked, hinner]
    rfl
  · rw [hafter]
    cases command <;> rfl

end Sides

example : ofArgs ["--format=json", "pods"] = ofArgs ["pods", "-f", "json"] := by decide +kernel

end Invocation

end NodeHealth
