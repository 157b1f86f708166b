import NodeHealth.Proofs.Toml.Value
import NodeHealth.Toml.Statement

/-!
# Documents made of lines

`Says cs ss` says that lines are read as statements, whatever lines stand behind them, so that a
document may be read piece by piece (`Says.append`): its lines are headings, assignments, comments
and blank ones. A `Document` is what such lines say, with names that are all different.

* `Document.ofStatements?_statements`: the statements of a document make its table.
* `Document.ofText?_of_written`: every text that writes a document, in one of the ways that
  `Written` allows, is read as its table.
-/

namespace NodeHealth.Toml

/-! ## Keys -/

/-- A key that needs no quotation marks. -/
def IsBareKey (key : String) : Prop := key ≠ "" ∧ ∀ c ∈ key.toList, isBareKeyChar c = true

instance (key : String) : Decidable (IsBareKey key) :=
  decidable_of_iff (key ≠ "" ∧ key.toList.all isBareKeyChar = true) (by
    rw [IsBareKey, List.all_eq_true])

theorem IsBareKey.exists_cons {key : String} (h : IsBareKey key) :
    ∃ c cs, key.toList = c :: cs ∧ isBareKeyChar c = true := by
  cases hkey : key.toList with
  | nil => exact absurd (String.toList_eq_nil_iff.1 hkey) h.1
  | cons c cs => exact ⟨c, cs, rfl, h.2 c (by simp [hkey])⟩

theorem skipSpace_cons {c : Char} (h : Quoted.isSpace c = false) (cs : List Char) :
    skipSpace (c :: cs) = c :: cs := by
  simp [skipSpace, h]

theorem simpleKey_bare {key : String} (h : IsBareKey key) {rest : List Char}
    (hrest : ∀ c ∈ rest.head?, isBareKeyChar c = false) :
    simpleKey (key.toList ++ rest) = some (key, rest) := by
  have hspan := Chars.span_append h.2 hrest
  obtain ⟨c, cs, hkey, -⟩ := h.exists_cons
  have hback : String.ofList (c :: cs) = key := by rw [← hkey, String.ofList_toList]
  rw [hkey] at hspan ⊢
  rw [simpleKey, hspan]
  exact congrArg (fun k => some (k, rest)) hback

/-- A bare key is read up to what separates it from its value or closes its heading. -/
theorem keyPath_bare {key : String} (h : IsBareKey key) {rest tail : List Char} {c : Char}
    (hrest : ∀ x ∈ rest.head?, isBareKeyChar x = false) (hskip : skipSpace rest = c :: tail)
    (hdot : c ≠ '.') : keyPath (key.toList ++ rest) = some (⟨[], key⟩, c :: tail) := by
  have hsimple := simpleKey_bare h hrest
  have hstart : skipSpace (key.toList ++ rest) = key.toList ++ rest := by
    obtain ⟨x, xs, hkey, hx⟩ := h.exists_cons
    rw [hkey, List.cons_append]
    exact skipSpace_cons (opens_of_test (by decide) hx).noSpace _
  have hkeys : keys (key.toList ++ rest) = some ([key], c :: tail) := by
    rw [keys, hstart, hsimple]
    simp only [hskip]
    split
    · next heq => exact absurd (List.cons.inj heq).1 hdot
    · rfl
  rw [keyPath, hkeys]
  rfl

/-! ## Lines -/

open Statement (readAll readLine)

/-- The lines are read as the statements, whatever lines stand behind them. -/
def Says (cs : List Char) (ss : List Statement) : Prop :=
  ∀ rest, readAll (cs ++ rest) = (readAll rest).map (ss ++ ·)

theorem Says.append {a b : List Char} {ss ts : List Statement} (ha : Says a ss) (hb : Says b ts) :
    Says (a ++ b) (ss ++ ts) := by
  intro rest
  rw [List.append_assoc, ha, hb, Option.map_map]
  simp [Function.comp_def]

theorem says_nil : Says [] [] := by
  intro rest
  simp

theorem Says.readAll {cs : List Char} {ss : List Statement} (h : Says cs ss) :
    Statement.readAll cs = some ss := by
  have hall := h []
  rwa [List.append_nil, Statement.readAll, Option.map_some, List.append_nil] at hall

theorem says_of_readLine (s : Option Statement) {line : List Char} (hline : line ≠ [])
    (h : ∀ rest, readLine (line ++ rest) = some (s, rest)) : Says line s.toList := by
  intro rest
  have hpos : 0 < line.length := List.length_pos_iff.2 hline
  have hshorter : rest.length < (line ++ rest).length := by
    rw [List.length_append]
    omega
  rw [Statement.readAll.eq_2 _ (by simp [hline]), h]
  simp only [hshorter, dite_true]

theorem lineEnd?_opens {c : Char} (h : Opens c) (cs : List Char) : lineEnd? (c :: cs) = none := by
  have hskip : skipComment (skipSpace (c :: cs)) = c :: cs := by
    rw [skipSpace_cons h.noSpace, skipComment.eq_2]
    exact fun _ heq => h.noComment (List.cons.inj heq).1
  have hbreak : Quoted.break? (c :: cs) = none := by
    rw [Quoted.break?.eq_3]
    · exact fun _ heq => h.noFeed (List.cons.inj heq).1
    · exact fun _ heq => h.noReturn (List.cons.inj heq).1
  rw [lineEnd?, hskip]
  exact hbreak

theorem readLine_of_body {c : Char} (hc : Opens c) {cs rest : List Char} {s : Statement}
    (h : Statement.readBody (c :: cs) = some (s, '\n' :: rest)) :
    readLine (c :: cs) = some (some s, rest) := by
  have hend : lineEnd? ('\n' :: rest) = some rest := rfl
  rw [readLine, lineEnd?_opens hc, skipSpace_cons hc.noSpace, h]
  simp [hend]

/-- A line that says nothing: a blank one or a comment. -/
inductive IsIdle : List Char → Prop
  | blank {gap : List Char} (blanks : ∀ c ∈ gap, Quoted.isSpace c = true) : IsIdle (gap ++ ['\n'])
  | comment {gap note : List Char} (blanks : ∀ c ∈ gap, Quoted.isSpace c = true)
      (plain : ∀ c ∈ note, Quoted.isPlain c = true) : IsIdle (gap ++ ('#' :: note ++ ['\n']))

theorem lineEnd?_gap {gap : List Char} (h : ∀ c ∈ gap, Quoted.isSpace c = true)
    (cs : List Char) : lineEnd? (gap ++ cs) = lineEnd? cs := by
  unfold lineEnd? skipSpace
  rw [List.dropWhile_append_of_pos h]

theorem lineEnd?_comment {note : List Char} (h : ∀ c ∈ note, Quoted.isPlain c = true)
    (rest : List Char) : lineEnd? ('#' :: note ++ '\n' :: rest) = some rest := by
  have hskip : skipSpace ('#' :: note ++ '\n' :: rest) = '#' :: (note ++ '\n' :: rest) :=
    skipSpace_cons (by decide) _
  have hcomment : (note ++ '\n' :: rest).dropWhile Quoted.isPlain = '\n' :: rest := by
    rw [List.dropWhile_append_of_pos h]
    rfl
  rw [lineEnd?, hskip, skipComment, hcomment]
  rfl

theorem IsIdle.ne_nil {line : List Char} (h : IsIdle line) : line ≠ [] := by
  cases h <;> simp

theorem IsIdle.ne_mark_cons {line cs tail : List Char} (h : IsIdle line) :
    line ++ cs ≠ '\uFEFF' :: tail := by
  have hgap : ∀ {gap more : List Char}, (∀ c ∈ gap, Quoted.isSpace c = true) →
      (∀ more', more ≠ '\uFEFF' :: more') → gap ++ more ≠ '\uFEFF' :: tail := by
    intro gap more hblanks hmore heq
    cases gap with
    | nil => exact hmore tail heq
    | cons c gap =>
      exact Chars.ne_of_test (hblanks c List.mem_cons_self) (by decide) (List.cons.inj heq).1
  cases h with
  | blank blanks =>
    rw [List.append_assoc]
    exact hgap blanks fun _ heq => absurd (List.cons.inj heq).1 (by decide)
  | comment blanks =>
    rw [List.append_assoc]
    exact hgap blanks fun _ heq => absurd (List.cons.inj heq).1 (by decide)

theorem IsIdle.lineEnd?_append {line : List Char} (h : IsIdle line) (rest : List Char) :
    lineEnd? (line ++ rest) = some rest := by
  cases h with
  | blank blanks =>
    rw [List.append_assoc, lineEnd?_gap blanks]
    rfl
  | comment blanks plain =>
    rw [List.append_assoc, lineEnd?_gap blanks, List.append_assoc]
    exact lineEnd?_comment plain rest

theorem says_idle {line : List Char} (h : IsIdle line) : Says line [] := by
  refine says_of_readLine none h.ne_nil fun rest => ?_
  rw [readLine, h.lineEnd?_append]

theorem says_blank : Says ['\n'] [] := says_idle (.blank (List.forall_mem_nil _))

/-- A heading opens a section. -/
theorem says_heading (key : String) (h : IsBareKey key) :
    Says ('[' :: key.toList ++ "]\n".toList) [.header ⟨[], key⟩] := by
  refine says_of_readLine (some (.header ⟨[], key⟩)) (List.cons_ne_nil _ _) fun rest => ?_
  have hpath : keyPath (key.toList ++ ']' :: '\n' :: rest) =
      some (⟨[], key⟩, ']' :: '\n' :: rest) :=
    keyPath_bare h (fun _ hx => by cases hx; decide) (skipSpace_cons (by decide) _) (by decide)
  have hbody : Statement.readBody ('[' :: (key.toList ++ ']' :: '\n' :: rest)) =
      some (.header ⟨[], key⟩, '\n' :: rest) := by
    rw [Statement.readBody.eq_2, hpath]
    · rfl
    · obtain ⟨c, cs, hkey, hc⟩ := h.exists_cons
      intro more hmore
      rw [hkey] at hmore
      exact Chars.ne_of_test hc (by decide) (List.cons.inj hmore).1
  have hline : '[' :: key.toList ++ "]\n".toList ++ rest =
      '[' :: (key.toList ++ ']' :: '\n' :: rest) := by simp
  rw [hline]
  exact readLine_of_body (by decide) hbody

/-- An assignment gives a key the value that its text denotes. -/
theorem says_assignment (key : String) (h : IsBareKey key) {cs : List Char} {v : Value}
    (hv : Denotes (value (nestingLimit - 1)) cs v) :
    Says (key.toList ++ " = ".toList ++ cs ++ ['\n']) [.assign ⟨[], key⟩ v] := by
  refine says_of_readLine (some (.assign ⟨[], key⟩ v)) (by simp) fun rest => ?_
  have hpath : keyPath (key.toList ++ ' ' :: '=' :: ' ' :: (cs ++ '\n' :: rest)) =
      some (⟨[], key⟩, '=' :: ' ' :: (cs ++ '\n' :: rest)) :=
    keyPath_bare h (fun _ hx => by cases hx; decide) rfl (by decide)
  have hspace : skipSpace (' ' :: (cs ++ '\n' :: rest)) = cs ++ '\n' :: rest := by
    obtain ⟨c, tail, hc, hopens⟩ := hv.opens
    rw [hc]
    exact skipSpace_cons hopens.noSpace _
  have hpair : pair (value (nestingLimit - 1))
      (key.toList ++ ' ' :: '=' :: ' ' :: (cs ++ '\n' :: rest)) =
        some ((⟨[], key⟩, v), '\n' :: rest) := by
    have hread := hv.reads ('\n' :: rest) (stops_cons (by decide) rest)
    rw [pair, hpath]
    simp [hspace, hread]
  obtain ⟨c, tail, hkey, hc⟩ := h.exists_cons
  have hline : key.toList ++ " = ".toList ++ cs ++ ['\n'] ++ rest =
      key.toList ++ ' ' :: '=' :: ' ' :: (cs ++ '\n' :: rest) := by simp
  rw [hline]
  rw [hkey, List.cons_append] at hpair ⊢
  refine readLine_of_body (opens_of_test (by decide) hc) ?_
  have hbracket : c ≠ '[' := Chars.ne_of_test hc (by decide)
  rw [Statement.readBody.eq_3, hpair]
  · rfl
  · exact fun _ hmore => hbracket (List.cons.inj hmore).1
  · exact fun _ hmore => hbracket (List.cons.inj hmore).1

/-! ## Tables with a new key -/

namespace Table

variable {key : String} {t : Table} (h : key ∉ t.map Prod.fst)
include h

theorem get?_of_new : t.get? key = none := by
  refine List.lookup_eq_none_iff.2 fun e he => bne_iff_ne.2 ?_
  rintro rfl
  exact h (List.mem_map_of_mem he)

theorem put_append (v : Value) (rest : Table) : put key v (t ++ rest) = t ++ put key v rest := by
  induction t with
  | nil => rfl
  | cons e t ih =>
    rw [List.map_cons, List.mem_cons, not_or] at h
    have hne : (e.1 == key) = false := beq_false_of_ne (Ne.symm h.1)
    rw [List.cons_append, put, hne, if_neg Bool.false_ne_true, ih h.2, List.cons_append]

theorem put_of_new (v : Value) : put key v t = t ++ [(key, v)] := by
  have happend := put_append h v []
  rwa [List.append_nil] at happend

theorem put_last (v w : Value) : put key v (t ++ [(key, w)]) = t ++ [(key, v)] := by
  rw [put_append h]
  simp [put]

theorem get?_last (v : Value) : get? key (t ++ [(key, v)]) = some v := by
  have hnew : t.lookup key = none := get?_of_new h
  rw [get?, List.lookup_append, hnew]
  simp

end Table

/-! ## Sections -/

/-- An assignment for each of the entries of a table. -/
def assignments (entries : Table) : List Statement :=
  entries.map fun e => .assign ⟨[], e.1⟩ e.2

/-- The statements of a section: its heading and an assignment for each of its entries. -/
def sectionStatements (s : String × Table) : List Statement :=
  .header ⟨[], s.1⟩ :: assignments s.2

/-- The table of a section, opened by its heading. -/
def sectionTable (s : String × Table) : String × Value := (s.1, .table .header s.2)

/-- Extends a document by statements one after the other. -/
def executeAll (ss : List Statement) (state : Table × List String) :
    Option (Table × List String) :=
  ss.foldlM (fun state s => Statement.execute s state) state

theorem execute_heading {name : String} {t : Table} (h : name ∉ t.map Prod.fst)
    (current : List String) :
    Statement.execute (.header ⟨[], name⟩) (t, current) =
      some (t ++ [sectionTable (name, [])], [name]) := by
  have hopen : t.openHeader name = some (t ++ [sectionTable (name, [])]) := by
    rw [Table.openHeader, Table.get?_of_new h, Table.put_of_new h]
    rfl
  rw [Statement.execute, Table.within, hopen]
  rfl

theorem assign_of_new {key : String} {t : Table} (h : key ∉ t.map Prod.fst) (v : Value) :
    Table.assign key v [] t = some (t ++ [(key, v)]) := by
  rw [Table.assign, Table.get?_of_new h, Table.put_of_new h]
  rfl

/-- Before the first heading an assignment extends the document itself. -/
theorem execute_topAssignment {key : String} {t : Table} (h : key ∉ t.map Prod.fst) (v : Value) :
    Statement.execute (.assign ⟨[], key⟩ v) (t, []) = some (t ++ [(key, v)], []) := by
  rw [Statement.execute, Table.within, assign_of_new h]
  rfl

theorem execute_assignment {name key : String} {t entries : Table} (h : name ∉ t.map Prod.fst)
    (hkey : key ∉ entries.map Prod.fst) (v : Value) :
    Statement.execute (.assign ⟨[], key⟩ v) (t ++ [sectionTable (name, entries)], [name]) =
      some (t ++ [sectionTable (name, entries ++ [(key, v)])], [name]) := by
  have hsection : (t ++ [sectionTable (name, entries)]).get? name = some (.table .header entries) :=
    Table.get?_last h _
  rw [Statement.execute, Table.within, hsection]
  simp only [Table.within, assign_of_new hkey, Option.map_some, sectionTable, Table.put_last h]

theorem executeAll_append (a b : List Statement) (state : Table × List String) :
    executeAll (a ++ b) state = (executeAll a state).bind (executeAll b) :=
  List.foldlM_append

/-- Assignments extend the table that is open one by one. `state` is the document as a function of
what that table holds. -/
theorem executeAll_assignments {state : Table → Table × List String}
    (hstep : ∀ {key : String} {entries : Table}, key ∉ entries.map Prod.fst → ∀ v : Value,
      Statement.execute (.assign ⟨[], key⟩ v) (state entries) =
        some (state (entries ++ [(key, v)])))
    {entries more : Table} (hkeys : ((entries ++ more).map Prod.fst).Nodup) :
    executeAll (assignments more) (state entries) = some (state (entries ++ more)) := by
  induction more generalizing entries with
  | nil => rw [List.append_nil]; rfl
  | cons e more ih =>
    have hassoc : entries ++ e :: more = entries ++ [e] ++ more := by simp
    have hkey : e.1 ∉ entries.map Prod.fst := by
      rw [List.map_append, List.nodup_append] at hkeys
      exact fun hmem => hkeys.2.2 _ hmem _ List.mem_cons_self rfl
    rw [hassoc] at hkeys
    have ih := ih hkeys
    rw [executeAll, assignments, List.map_cons, List.foldlM_cons, hstep hkey, hassoc, ← ih]
    rfl

theorem executeAll_section {s : String × Table} {t : Table} (h : s.1 ∉ t.map Prod.fst)
    (hkeys : (s.2.map Prod.fst).Nodup) (current : List String) :
    executeAll (sectionStatements s) (t, current) = some (t ++ [sectionTable s], [s.1]) := by
  have hassignments : executeAll (assignments s.2) (t ++ [sectionTable (s.1, [])], [s.1]) =
      some (t ++ [sectionTable s], [s.1]) := executeAll_assignments (execute_assignment h) hkeys
  rw [sectionStatements, executeAll, List.foldlM_cons, execute_heading h]
  exact hassignments

theorem executeAll_sections {ss : List (String × Table)} {t : Table}
    (hnames : (t.map Prod.fst ++ ss.map Prod.fst).Nodup)
    (hkeys : ∀ s ∈ ss, (s.2.map Prod.fst).Nodup) (current : List String) :
    (executeAll (ss.flatMap sectionStatements) (t, current)).map Prod.fst =
      some (t ++ ss.map sectionTable) := by
  induction ss generalizing t current with
  | nil => simp [executeAll]
  | cons s ss ih =>
    have hname : s.1 ∉ t.map Prod.fst := by
      rw [List.nodup_append] at hnames
      exact fun hmem => hnames.2.2 _ hmem _ List.mem_cons_self rfl
    have hrest : ((t ++ [sectionTable s]).map Prod.fst ++ ss.map Prod.fst).Nodup := by
      simpa [sectionTable] using hnames
    have ih := ih hrest (fun x hx => hkeys x (List.mem_cons_of_mem s hx)) [s.1]
    rw [List.flatMap_cons, executeAll_append,
      executeAll_section hname (hkeys s List.mem_cons_self), Option.bind_some, ih]
    simp

/-! ## Documents -/

/-- What a document says: assignments before the first heading, and sections. No two of its keys
and sections have the same name, nor have two keys of a section. -/
structure Document where
  top : Table
  sections : List (String × Table)
  names : (top.map Prod.fst ++ sections.map Prod.fst).Nodup
  keys : ∀ s ∈ sections, (s.2.map Prod.fst).Nodup

namespace Document

/-- The table that a document describes. -/
def table (d : Document) : Table := d.top ++ d.sections.map sectionTable

def statements (d : Document) : List Statement :=
  assignments d.top ++ d.sections.flatMap sectionStatements

theorem ofStatements?_statements (d : Document) :
    Table.ofStatements? d.statements = some d.table := by
  let state (t : Table) : Table × List String := (t, [])
  have htop : executeAll (assignments d.top) (state []) = some (state d.top) :=
    executeAll_assignments execute_topAssignment (List.nodup_append.1 d.names).1
  have hsections := executeAll_sections d.names d.keys []
  have hall : executeAll d.statements ([], []) =
      executeAll (d.sections.flatMap sectionStatements) (d.top, []) := by
    rw [statements, executeAll_append, htop, Option.bind_some]
  rw [← hall] at hsections
  exact hsections

end Document

theorem Says.ofText?_eq {s : String} {ss : List Statement} (h : Says s.toList ss)
    (hmark : ∀ cs, s.toList ≠ '\uFEFF' :: cs) : Table.ofText? s = Table.ofStatements? ss := by
  rw [Table.ofText?]
  split
  · next hs => exact absurd hs (hmark _)
  · rw [h.readAll, Option.bind_some]

/-! ## Ways to write a document -/

/-- The lines of a text write statements: headings and assignments, one per line, and among them any
lines that say nothing. -/
inductive Written : List Char → List Statement → Prop
  | done : Written [] []
  | idle {line cs : List Char} {ss : List Statement} (idle : IsIdle line) (rest : Written cs ss) :
      Written (line ++ cs) ss
  | heading {key : String} {cs : List Char} {ss : List Statement} (bare : IsBareKey key)
      (rest : Written cs ss) :
      Written ('[' :: key.toList ++ "]\n".toList ++ cs) (.header ⟨[], key⟩ :: ss)
  | assignment {key : String} {text cs : List Char} {v : Value} {ss : List Statement}
      (bare : IsBareKey key) (writes : Writes (nestingLimit - 1) text v) (rest : Written cs ss) :
      Written (key.toList ++ " = ".toList ++ text ++ ['\n'] ++ cs) (.assign ⟨[], key⟩ v :: ss)

namespace Written

theorem toSays {cs : List Char} {ss : List Statement} (h : Written cs ss) : Says cs ss := by
  induction h with
  | done => exact says_nil
  | idle idle _ ih => exact (says_idle idle).append ih
  | heading bare _ ih => exact (says_heading _ bare).append ih
  | assignment bare writes _ ih => exact (says_assignment _ bare writes.denotes).append ih

/-- No line begins with a byte order mark. -/
theorem ne_mark_cons {cs : List Char} {ss : List Statement} (h : Written cs ss) (tail : List Char) :
    cs ≠ '\uFEFF' :: tail := by
  intro heq
  cases h with
  | done => cases heq
  | idle idle rest => exact idle.ne_mark_cons heq
  | heading => exact absurd (List.cons.inj heq).1 (by decide)
  | assignment bare =>
    obtain ⟨c, key, hkey, hc⟩ := bare.exists_cons
    rw [hkey] at heq
    exact Chars.ne_of_test hc (by decide) (List.cons.inj heq).1

end Written

/-- A text that writes what a document says is read as the table of that document. -/
theorem Document.ofText?_of_written {d : Document} {text : String}
    (h : Written text.toList d.statements) : Table.ofText? text = some d.table := by
  rw [h.toSays.ofText?_eq h.ne_mark_cons, ofStatements?_statements]

end NodeHealth.Toml
