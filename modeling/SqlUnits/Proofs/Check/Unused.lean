import SqlUnits.Proofs.Check.Denoting
import SqlUnits.Proofs.Check.Sending
/-!
What a unit declares and does not use. Of a unit that passes there are warnings for the parameters
that no statement of their method refers to, and for the row types that no statement populates;
nothing else is said but which statements did not run.
-/

namespace SqlUnits

/-- The placeholders in the text of a statement. -/
def StatementDecl.placeholders (s : StatementDecl) : List Query.Placeholder :=
  match s.sql with
  | some text => ((Query.parse text.text).toOption.map (·.placeholders)).getD []
  | none => []

/-- The row type that a statement populates. -/
def StatementDecl.row? (s : StatementDecl) : Option Ident :=
  match s.target with
  | .row name => some name
  | _ => none

theorem StatementDecl.populates_iff {s : StatementDecl} {row : String} :
    s.populates row = true ↔ ∃ name ∈ s.row?, name.name = row := by
  unfold populates row?
  cases s.target <;> simp

namespace MethodDecl

variable {method : MethodDecl} {s : StatementDecl} {p : ParamDecl}

/-- A statement refers to a parameter in its text, where a placeholder has the name or the number of
the parameter, or in its list of arguments; those of a procedure are such a list. -/
inductive Refers (method : MethodDecl) (s : StatementDecl) (p : ParamDecl) : Prop
  | denoted {placeholder : Query.Placeholder} {name : String} :
      placeholder ∈ s.placeholders → placeholder.name = some name → method.Denotes name p →
      Refers method s p
  | listed {entry : Ident} : entry ∈ s.args.getD [] → p.name.name = entry.name →
      Refers method s p

theorem denotes_iff {name : String} :
    method.Denotes name p ↔ (p ∈ method.params ∧ p.name.name = name) ∨
      ∃ n ∈ Text.toNatBelow? (twoPow 64) name.toList, 1 ≤ n ∧ method.params[n - 1]? = some p := by
  simp only [Option.mem_def, Text.toNatBelow?_eq_some_iff]
  constructor
  · intro denotes
    cases denotes with
    | named member same => exact .inl ⟨member, same⟩
    | numbered count least found => exact .inr ⟨_, count, least, found⟩
  · rintro (⟨member, same⟩ | ⟨n, count, least, found⟩)
    · exact .named member same
    · exact .numbered count least found

theorem refers_iff :
    method.Refers s p ↔
      (∃ placeholder ∈ s.placeholders, ∃ name ∈ placeholder.name, method.Denotes name p) ∨
        ∃ entry ∈ s.args.getD [], p.name.name = entry.name := by
  constructor
  · intro refers
    cases refers with
    | denoted member written denotes => exact .inl ⟨_, member, _, written, denotes⟩
    | listed member same => exact .inr ⟨_, member, same⟩
  · rintro (⟨_, member, _, written, denotes⟩ | ⟨_, member, same⟩)
    · exact .denoted member written denotes
    · exact .listed member same

instance (method : MethodDecl) (name : String) (p : ParamDecl) :
    Decidable (method.Denotes name p) :=
  decidable_of_iff _ denotes_iff.symm

instance (method : MethodDecl) (s : StatementDecl) (p : ParamDecl) :
    Decidable (method.Refers s p) :=
  decidable_of_iff _ refers_iff.symm

theorem Denotes.mem {name : String} (denotes : method.Denotes name p) : p ∈ method.params := by
  cases denotes with
  | named member _ => exact member
  | numbered _ _ found => exact List.mem_of_getElem? found

namespace Distinct

variable (distinct : method.Distinct)
include distinct

/-- Among names of parameters that are related to some elements, there is the name of a parameter
if it is one of these parameters. -/
theorem mem_names {α : Type} {R : α → ParamDecl → Prop} {as : List α} {ps : List ParamDecl}
    (among : ∀ a p, R a p → p ∈ method.params) (unique : ∀ a p p', R a p → R a p' → p = p')
    (pairs : List.Forall₂ R as ps) (member : p ∈ method.params) :
    p.name.name ∈ ps.map (·.name.name) ↔ ∃ a ∈ as, R a p := by
  constructor
  · intro named
    obtain ⟨p', inside, same⟩ := List.mem_map.1 named
    obtain ⟨a, source, related⟩ := (forall₂_mem pairs).2 p' inside
    rw [← distinct.eq_of_name (among a p' related) member same]
    exact ⟨a, source, related⟩
  · rintro ⟨a, source, related⟩
    obtain ⟨p', inside, related'⟩ := (forall₂_mem pairs).1 a source
    rw [unique a p p' related related']
    exact List.mem_map_of_mem inside

theorem mem_listed {entries : List Ident} {ps : List ParamDecl}
    (pairs : List.Forall₂ (fun entry p => p ∈ method.params ∧ p.name.name = entry.name) entries ps)
    (member : p ∈ method.params) :
    p.name.name ∈ ps.map (·.name.name) ↔ ∃ entry ∈ entries, p.name.name = entry.name := by
  rw [distinct.mem_names (fun _ _ listed => listed.1) (fun _ _ _ listed listed' =>
    distinct.eq_of_name listed.1 listed'.1 (listed.2.trans listed'.2.symm)) pairs member]
  simp [member]

/-- The placeholders of a query are bound to the parameters that are referred to. -/
theorem mem_bound {q : Query.ParsedQuery} {explicit : Option (List Ident)} {ps : List ParamDecl}
    (binds : method.Binds q explicit ps) (member : p ∈ method.params) :
    p.name.name ∈ ps.map (·.name.name) ↔
      (∃ placeholder ∈ q.placeholders, ∃ name ∈ placeholder.name, method.Denotes name p) ∨
        ∃ entry ∈ explicit.getD [], p.name.name = entry.name := by
  cases binds with
  | named _ pairs =>
      rw [distinct.mem_names ?_ ?_ pairs member]
      · simp
      · rintro _ _ ⟨_, _, denotes⟩
        exact denotes.mem
      · rintro _ _ _ ⟨_, written, denotes⟩ ⟨_, written', denotes'⟩
        cases written.symm.trans written'
        exact distinct.denotes_unique denotes denotes'
  | listed none_ _ pairs =>
      rw [distinct.mem_listed pairs member, or_iff_right]
      rintro ⟨placeholder, inside, name, written, _⟩
      rw [none_ placeholder inside] at written
      cases written

end Distinct

end MethodDecl

namespace Validator

variable {v : Validator} {site : Site} {s t : CheckState} {checked : Checked}
  {params : ParamTable}

/-- The arguments of a statement that passes are the parameters that it refers to. -/
theorem statement_refers (distinct : site.method.Distinct)
    (words : ∀ entry ∈ site.statement.args.getD [], Scanner.IsName entry.name.toList)
    (formed : site.statement.WellFormed) (runs : Runs (v.statement params site) s checked t)
    {p : ParamDecl} (member : p ∈ site.method.params) :
    p.name.name ∈ checked.statement.args ↔ site.method.Refers site.statement p := by
  rw [MethodDecl.refers_iff]
  have textless (object : site.statement.convention = .proc ∨
      site.statement.convention = .nextval) : site.statement.placeholders = [] := by
    have noText : site.statement.sql = none := by
      rw [← Option.not_isSome_iff_eq_none, formed.sql]
      tauto
    unfold StatementDecl.placeholders
    rw [noText]
  by_cases proc : site.statement.convention = .proc
  · obtain ⟨_, args, _, _, resolved, _, rest⟩ := (runs_statement_proc proc).1 runs
    obtain ⟨_, _, _, rfl⟩ := runs_checkObject.1 rest
    obtain ⟨ps, pairs, rfl⟩ :=
      (distinct.mapM_resolveName fun entry : Ident => entry.name).1 resolved
    rw [textless (.inl proc)]
    simpa using distinct.mem_listed ((MethodDecl.listed_iff words).1 pairs) member
  by_cases nextval : site.statement.convention = .nextval
  · obtain ⟨_, _, rest⟩ := (runs_statement_nextval nextval).1 runs
    obtain ⟨_, _, _, rfl⟩ := runs_checkObject.1 rest
    rw [textless (.inr nextval), formed.nextval nextval]
    simp
  · obtain ⟨text, q, args, written, parsed, bound, _, names⟩ :=
      statement_keeps_sql proc nextval runs
    obtain ⟨bound, _⟩ := Arguments.ofStatement_bound bound
    obtain ⟨ps, binds, same⟩ :=
      ((MethodDecl.bindPlaceholders_binds distinct words q).bound _).1 bound
    have placeholders : site.statement.placeholders = q.placeholders := by
      unfold StatementDecl.placeholders
      rw [written]
      simp [parsed, Except.toOption]
    rw [names, same, placeholders]
    exact distinct.mem_bound binds member

end Validator

namespace SourceUnit

variable {unit : SourceUnit}

/-- The parameters that no statement of their method refers to, in source order. -/
def unusedParams (unit : SourceUnit) : List (MethodDecl × ParamDecl) :=
  (unit.methods.flatMap fun m => m.params.map (m, ·)).filter fun (m, p) =>
    ∀ s ∈ m.statements, ¬m.Refers s p

/-- The row types that are the target of no statement, in source order. -/
def unusedRows (unit : SourceUnit) : List RowDecl :=
  unit.rows.filter fun r =>
    ∀ site ∈ unit.sites, ∀ name ∈ site.statement.row?, name.name ≠ r.name.name

/-- A warning for each of these, at the line where it is declared. -/
def unusedWarnings (severity : Severity) (unit : SourceUnit) : List Diagnostic :=
  (unit.unusedParams.map fun (m, p) =>
    { code := .paramUnused, severity
      message := "Parameter " ++ p.name.name ++ " of " ++ unit.methodOwner m ++ " is never used"
      location := some (.atLine unit.path p.line) }) ++
  unit.unusedRows.map fun r =>
    { code := .rowUnused, severity
      message := "Row type " ++ unit.qualified r.name.name ++ " is never populated"
      location := some (.atLine unit.path r.line) }

theorem mem_sites {site : Site} :
    site ∈ unit.sites ↔ ∃ m ∈ unit.methods, ∃ s ∈ m.statements, ⟨unit, m, s⟩ = site := by
  simp [sites]

theorem isPopulated_iff {row : String} :
    unit.isPopulated row = true ↔
      ∃ site ∈ unit.sites, ∃ name ∈ site.statement.row?, name.name = row := by
  simp only [isPopulated, List.any_eq_true, StatementDecl.populates_iff]
  constructor
  · rintro ⟨m, member, s, inside, name, target, same⟩
    exact ⟨⟨unit, m, s⟩, mem_sites.2 ⟨m, member, s, inside, rfl⟩, name, target, same⟩
  · rintro ⟨_, visited, name, target, same⟩
    obtain ⟨m, member, s, inside, rfl⟩ := mem_sites.1 visited
    exact ⟨m, member, s, inside, name, target, same⟩

section

variable {path text : String}

/-- What a method binds in the artifact is what its statements refer to. -/
theorem isUsed_iff (read : scan path text = .ok unit) {v : Validator} {u : ValidatedUnit}
    {run last : RunRecord} {opened : Connection} {t : CheckState}
    (passing : Validator.Passing v unit u run last opened t) {m : MethodDecl}
    (member : m ∈ unit.methods) {p : ParamDecl} (inside : p ∈ m.params) :
    isUsed u.methods m.name.name p.name.name = true ↔ ∃ s ∈ m.statements, m.Refers s p := by
  have formed := scan_wellFormed read
  have refers {s : StatementDecl} (here : s ∈ m.statements) {before after : CheckState}
      {checked : Checked}
      (runs : Runs (v.statement u.params ⟨unit, m, s⟩) before checked after) :
      p.name.name ∈ checked.statement.args ↔ m.Refers s p :=
    Validator.statement_refers (scan_distinct read m member) (scan_entries read member here)
      ((formed.each m member).statements s here) runs inside
  simp only [isUsed, List.any_eq_true, Bool.and_eq_true, beq_iff_eq, List.contains_eq_mem,
    decide_eq_true_eq]
  constructor
  · rintro ⟨typed, artifact, named, statement, kept, arg⟩
    obtain ⟨m', member', typedAs, s, here, _, _, _, runs, rfl, _⟩ := passing.visited artifact kept
    obtain rfl : m' = m := List.inj_on_of_nodup_map (List.pairwise_map.2 formed.methods) member'
      member (typedAs.name.symm.trans named)
    exact ⟨s, here, (refers here runs).1 arg⟩
  · rintro ⟨s, here, refersTo⟩
    obtain ⟨typed, artifact, typedAs, statements⟩ := passing.each member
    obtain ⟨_, kept, _, _, _, runs, rfl, _⟩ := statements s here
    exact ⟨typed, artifact, typedAs.name, _, kept, (refers here runs).2 refersTo⟩

theorem nodup_unusedParams (read : scan path text = .ok unit) :
    (unit.unusedParams.map fun (m, p) => (m.name.name, p.name.name)).Nodup := by
  have formed := scan_wellFormed read
  refine ((List.filter_sublist).map _).nodup ?_
  rw [List.map_flatMap, List.nodup_flatMap]
  constructor
  · intro m member
    rw [List.map_map]
    refine List.pairwise_map.2 ((formed.each m member).params.imp fun differ same => ?_)
    exact differ (Prod.ext_iff.1 same).2
  · refine formed.methods.imp fun differ => List.disjoint_left.2 fun pair here there => ?_
    simp only [List.map_map, List.mem_map, Function.comp_apply] at here there
    obtain ⟨_, _, rfl⟩ := here
    obtain ⟨_, _, same⟩ := there
    exact differ (Prod.ext_iff.1 same).1.symm

theorem nodup_unusedRows (read : scan path text = .ok unit) :
    (unit.unusedRows.map (·.name.name)).Nodup :=
  ((List.filter_sublist).map _).nodup (List.pairwise_map.2 (scan_wellFormed read).rows)

end

end SourceUnit

namespace Validator

variable {v : Validator} {unit : SourceUnit} {u : ValidatedUnit} {path text : String}

theorem warnings_eq (read : SourceUnit.scan path text = .ok unit) {run last : RunRecord}
    {opened : Connection} {t : CheckState} (passing : Passing v unit u run last opened t) :
    v.warnings unit u.methods =
      match v.warn.severity? with
      | some severity => unit.unusedWarnings severity
      | none => [] := by
  unfold warnings
  cases v.warn.severity? with
  | none => rfl
  | some severity =>
      refine congrArg₂ (· ++ ·) ?_ ?_
      · unfold unusedParams SourceUnit.unusedParams
        rw [List.filter_flatMap, List.map_flatMap]
        refine List.flatMap_congr fun m member => ?_
        rw [List.filter_map, List.map_map]
        refine congrArg _ (List.filter_congr fun p inside => ?_)
        rw [Bool.eq_iff_iff, Bool.not_eq_true', ← Bool.not_eq_true,
          SourceUnit.isUsed_iff read passing member inside]
        simp
      · refine congrArg _ (List.filter_congr fun r _ => ?_)
        rw [Bool.eq_iff_iff, Bool.not_eq_true', ← Bool.not_eq_true, SourceUnit.isPopulated_iff]
        simp

/-- What is said of a unit that passes. First there is a note for each statement that does not run,
in the order of the statements. Then, if the warn mode has a severity for it, there is a warning for
each parameter that its method does not refer to, and one for each row type that is not populated.
No warning comes twice, and nothing else is said. -/
theorem validate_unused (read : SourceUnit.scan path text = .ok unit) {source : ConnectionSource}
    {run last : RunRecord} (passed : v.validate source unit run = (.ok u, last)) :
    (unit.unusedParams.map fun (m, p) => (m.name.name, p.name.name)).Nodup ∧
      (unit.unusedRows.map (·.name.name)).Nodup ∧
      ∃ notes, List.Forall₂ Site.Noted
          (unit.sites.filter (·.statement.convention.isMutation)) notes ∧
        u.diagnostics = notes ++
          match v.warn.severity? with
          | some severity => unit.unusedWarnings severity
          | none => [] := by
  obtain ⟨_, _, _, _, passing⟩ := validate_passing passed
  obtain ⟨notes, noted, said⟩ := validate_noted passed
  rw [warnings_eq read passing] at said
  exact ⟨SourceUnit.nodup_unusedParams read, SourceUnit.nodup_unusedRows read, notes, noted, said⟩

/-- One parameter is an argument of a procedure, the other one is not used. -/
theorem validate_unused_proc :
    let v : Validator := { registry := .builtins, checker := .generic }
    let text := "unit U row R row S\nfn m(a=1,b=2)\x7bmany R\x7bSELECT 1\x7d proc p(b)\x7d"
    ∃ unit u last note, SourceUnit.scan "u" text = .ok unit ∧
      v.validate (.apart (.ok {})) unit {} = (.ok u, last) ∧
      u.diagnostics = [note,
        { code := .paramUnused, severity := .warn
          message := "Parameter a of U::m is never used", location := some (.atLine "u" 2) },
        { code := .rowUnused, severity := .warn
          message := "Row type U::S is never populated", location := some (.atLine "u" 1) }] ∧
      note.severity = .info := by
  intro v text
  have shown : ((SourceUnit.scan "u" text).toOption.bind fun unit =>
      (v.validate (.apart (.ok {})) unit {}).1.toOption.map fun _ =>
        ((unit.sites.filter (·.statement.convention.isMutation)).length,
          unit.unusedWarnings .warn)) = some (1, [
        { code := .paramUnused, severity := .warn
          message := "Parameter a of U::m is never used", location := some (.atLine "u" 2) },
        { code := .rowUnused, severity := .warn
          message := "Row type U::S is never populated", location := some (.atLine "u" 1) }]) := by
    decide +kernel
  obtain ⟨unit, read, shown⟩ := Option.bind_eq_some_iff.1 shown
  obtain ⟨u, passed, shown⟩ := Option.map_eq_some_iff.1 shown
  obtain ⟨single, warned⟩ := Prod.ext_iff.1 shown
  have read := eq_ok_of_toOption read
  have passed : v.validate (.apart (.ok {})) unit {} = (.ok u, _) :=
    Prod.ext (eq_ok_of_toOption passed) rfl
  obtain ⟨_, _, notes, noted, said⟩ := validate_unused read passed
  obtain ⟨note, rfl⟩ := List.length_eq_one_iff.1 (noted.length_eq.symm.trans single)
  obtain ⟨_, _, here⟩ := (forall₂_mem noted).2 note (.head _)
  refine ⟨unit, u, _, note, read, passed, said.trans (congrArg _ warned), ?_⟩
  cases here <;> rfl

end Validator

end SqlUnits
