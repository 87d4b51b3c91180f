import SqlUnits.Proofs.Check.Editing
import SqlUnits.Proofs.Check.Nullable
import SqlUnits.Proofs.Project.Again
import SqlUnits.Proofs.Project.Persistence
import SqlUnits.Proofs.Unit.Fieldless
/-!
What a run writes back, read again. A bare row gets as many fields as a query that populates it
returns columns; a text is a unit again exactly if none of its rows got an empty list.
-/

namespace SqlUnits

variable {unit : SourceUnit} {shapes : ShapeRegistry}

/-- Whether a bare row is discovered without a field. -/
def SourceUnit.emptied (unit : SourceUnit) (shapes : ShapeRegistry) (r : RowDecl) : Bool :=
  r.fields.isNone && (discovered? unit shapes r).any (·.isEmpty)

theorem SourceUnit.emptied_eq_true {r : RowDecl} :
    unit.emptied shapes r = true ↔ r.fields = none ∧ discovered? unit shapes r = some [] := by
  unfold emptied
  simp only [Bool.and_eq_true, Option.isNone_iff_eq_none, Option.any_eq_true, List.isEmpty_iff]
  refine and_congr_right fun _ => ⟨?_, fun found => ⟨[], found, rfl⟩⟩
  rintro ⟨_, found, rfl⟩
  exact found

/-- The edits of rows fill in what was discovered, also where this is nothing. -/
theorem rowEdits_listed (edits : EditList) (builtin : shapes.Builtin) :
    TypedUnit.rowEdits unit shapes =
      (unit.rows.filterMap
        (·.listed? (.found unit edits shapes) (unit.emptied shapes))).foldlM EditList.add {} := by
  unfold TypedUnit.rowEdits
  refine congrArg (·.foldlM EditList.add {}) (List.filterMap_congr fun r _ => ?_)
  rw [TypedUnit.rowEdit?_eq]
  cases hole : unit.emptied shapes r with
  | true =>
      obtain ⟨bare, found⟩ := SourceUnit.emptied_eq_true.1 hole
      rw [RowDecl.listed?_of_empty hole, bare, found]
      rfl
  | false =>
      rw [RowDecl.listed?_of_full hole]
      unfold RowDecl.edit?
      cases declared : r.fields with
      | some fields => rfl
      | none =>
          rw [fields_found edits builtin fun found => ?_]
          · rfl
          · rw [SourceUnit.emptied_eq_true.2 ⟨declared, found⟩] at hole
            cases hole

/-- The artifact tells which rows are discovered without a field. -/
theorem emptied_iff_build {methods : List TypedMethod} :
    (∀ r ∈ unit.rows, unit.emptied shapes r = false) ↔
      ∀ row ∈ (TypedUnit.build unit methods shapes).rows, row.declared = false →
        row.fields ≠ [] := by
  constructor
  · intro full row member bare empty
    obtain ⟨r, inside, made⟩ := List.mem_filterMap.1 member
    refine absurd (SourceUnit.emptied_eq_true.2 ?_) (ne_true_of_eq_false (full r inside))
    unfold discovered?
    unfold TypedRow.ofDecl? at made
    cases declared : r.fields with
    | some fields =>
        rw [declared] at made
        cases made
        cases bare
    | none =>
        refine ⟨rfl, ?_⟩
        rw [declared] at made
        cases recorded : shapes.get? (unit.qualified r.name.name) with
        | none =>
            rw [recorded] at made
            cases made
        | some shape =>
            rw [recorded] at made
            obtain ⟨fields, found, rfl⟩ := Option.map_eq_some_iff.1 made
            obtain rfl : fields = [] := empty
            exact found
  · intro some_ r member
    refine eq_false_of_ne_true fun hole => ?_
    obtain ⟨bare, found⟩ := SourceUnit.emptied_eq_true.1 hole
    exact hasFields_of_build some_ r member bare found

/-- A unit that passed is always written. -/
theorem Attempt.finish_written {v : Validator} {connections : ConnectionSource}
    {run last : RunRecord} {u : ValidatedUnit} {file : SourceFile}
    (read : SourceUnit.scan file.path file.text = .ok unit)
    (passed : v.validate connections unit run = (.ok u, last)) (builtin : shapes.Builtin) :
    ∃ text, finish file unit u shapes = written file unit u shapes text ∧
      ((∃ again, SourceUnit.scan file.path text = .ok again) ↔
        ∀ row ∈ (TypedUnit.build unit u.methods shapes).rows, row.declared = false →
          row.fields ≠ []) := by
  have bare (r : RowDecl) (hole : unit.emptied shapes r = true) : r.fields = none :=
    (SourceUnit.emptied_eq_true.1 hole).1
  obtain ⟨edits, rows, all, text, added, addedRows, extended, applied, scans⟩ :=
    SourceUnit.scan_listed read (.found unit u.edits shapes) bare
  obtain rfl : u.edits = edits :=
    Except.ok.inj ((Validator.validate_edits read passed shapes).symm.trans added)
  rw [← rowEdits_listed u.edits builtin] at addedRows
  rw [← SourceUnit.scan_source read] at applied
  exact ⟨text, finish_eq_written addedRows extended applied, scans.trans emptied_iff_build⟩

namespace Validator

variable {v : Validator} {site : Site} {s t : CheckState} {checked : Checked}

/-- A bare row has as many fields as a query that populates it returns columns. -/
theorem checkRow_discovers {typed : TypedStatement} {row : Ident} {columns : List ColumnInfo}
    (runs : Runs (v.checkRow site typed row columns) s checked t)
    (grows : t.shapes.Grows shapes) {decl : RowDecl}
    (known : site.unit.row? row.name = some decl) (bare : decl.fields = none) :
    ∃ shape fields, shapes.get? (site.unit.qualified row.name) = some shape ∧
      discoveredFields shape = some fields ∧ fields.length = columns.length := by
  obtain ⟨_, declared⟩ := checkRow_hasFields runs ⟨decl, known⟩
  obtain ⟨decl', known', typed⟩ := declared.grows grows
  obtain rfl : decl' = decl := Option.some.inj (known'.symm.trans known)
  obtain ⟨shape, recorded, typed⟩ := typed bare
  obtain ⟨fields, made⟩ := fieldsFrom_isSome typed [] 0
  obtain ⟨_, first, _, observed, rfl, _⟩ := runs_checkRow.1 runs
  obtain ⟨get, covers, _, _⟩ := ShapeRegistry.record_eq_ok observed
  obtain ⟨wide, recorded', wider⟩ := grows.below _ first ((get _).trans (if_pos rfl))
  obtain rfl : shape = wide := Option.some.inj (recorded.symm.trans recorded')
  refine ⟨shape, fields, recorded, made, ?_⟩
  exact (fieldsFrom_describes made).length_eq.symm.trans
    (covers.trans wider).below.length_eq.symm

end Validator

/-- Each statement of a unit that passed has its place in the artifact. -/
theorem Validator.Passing.length {v : Validator} {u : ValidatedUnit} {run next : RunRecord}
    {opened : Connection} {t : CheckState} (passing : Passing v unit u run next opened t) :
    unit.sites.length = (u.methods.flatMap (·.statements)).length := by
  have each {decls : List MethodDecl} {methods : List TypedMethod}
      (typed : List.Forall₂ (MethodDecl.TypedAs u.params) decls methods) :
      (decls.flatMap fun method => method.statements.map (Site.mk unit method)).length =
        (methods.flatMap (·.statements)).length := by
    induction typed with
    | nil => rfl
    | cons one _ ih =>
        rw [List.flatMap_cons, List.flatMap_cons, List.length_append, List.length_append, ih,
          List.length_map, one.statements]
  exact each passing.typed

/-- What is written back for a unit that passed. -/
structure Written (p : Preprocessor) (file : SourceFile) (unit : SourceUnit) (typed : TypedUnit)
    (text : String) : Prop where
  /-- Every statement that populates a row was returned columns, and a bare row has as many fields
  as there were. -/
  populated : ∃ params opened, Inference.ofUnit unit p.registry = .ok params ∧
    (∃ db, (p.source.connect db).1 = .ok opened) ∧
    ∀ (place : Nat) (site : Site) (name : Ident), unit.sites[place]? = some site →
      site.statement.target = .row name →
        ∃ columns, p.validator.Returns params site
            (p.validator.reached params unit opened place) columns ∧
          ∀ decl, unit.row? name.name = some decl → decl.fields = none →
            ∃ row ∈ typed.rows, row.name = name.name ∧ row.declared = false ∧
              row.fields.length = columns.length
  accepted : (∃ again, SourceUnit.scan file.path text = .ok again) ↔
    ∀ row ∈ typed.rows, row.declared = false → row.fields ≠ []

namespace Preprocessor

variable {p : Preprocessor} {file : SourceFile} {run : RunRecord}

theorem validated_populates {u : ValidatedUnit} {last : RunRecord} {path text : String}
    (read : SourceUnit.scan path text = .ok unit)
    (passed : p.validator.validate p.source unit run = (.ok u, last))
    (grows : last.shapes.Grows shapes) :
    ∃ params opened, Inference.ofUnit unit p.registry = .ok params ∧
      (∃ db, (p.source.connect db).1 = .ok opened) ∧
      ∀ (place : Nat) (site : Site) (name : Ident), unit.sites[place]? = some site →
        site.statement.target = .row name →
          ∃ columns, p.validator.Returns params site
              (p.validator.reached params unit opened place) columns ∧
            ∀ decl, unit.row? name.name = some decl → decl.fields = none →
              ∃ row ∈ (TypedUnit.build unit u.methods shapes).rows, row.name = name.name ∧
                row.declared = false ∧ row.fields.length = columns.length := by
  obtain ⟨opened, stored, t, connected, passing⟩ := Validator.validate_passing passed
  refine ⟨u.params, opened, passing.inferred, ⟨_, by rw [connected]⟩, ?_⟩
  intro place site name here target
  obtain ⟨low, same⟩ := List.getElem?_eq_some_iff.1 here
  have low' := passing.length ▸ low
  have paired : (unit.sites.zip (u.methods.flatMap (·.statements)))[place]? =
      some (site, (u.methods.flatMap (·.statements))[place]) := by
    rw [List.getElem?_zip_eq_some]
    exact ⟨here, List.getElem?_eq_getElem low'⟩
  obtain ⟨before, checked, after, runs, reaches, _, later⟩ := passing.at paired
  obtain ⟨method, member, inside⟩ := List.mem_flatMap.1 (List.mem_of_getElem? here)
  obtain ⟨statement, among, rfl⟩ := List.mem_map.1 inside
  obtain ⟨columns, returned, typed, _, checks⟩ := Validator.statement_populates runs target
    (SourceUnit.scan_readsRow read member among target)
  refine ⟨columns, reaches ▸ returned, fun decl known bare => ?_⟩
  obtain ⟨shape, fields, recorded, made, length⟩ :=
    Validator.checkRow_discovers checks (later.trans grows) known bare
  have named : decl.name.name = name.name := by
    simpa using List.find?_some known
  refine ⟨⟨decl.name.name, shape.isMeta, false, fields⟩, ?_, named, rfl, length⟩
  refine List.mem_filterMap.2 ⟨decl, List.mem_of_find?_eq_some known, ?_⟩
  unfold TypedRow.ofDecl?
  rw [bare, named, recorded]
  simp only [made, Option.map_some]

theorem attempt_written (builtin : shapes.Builtin)
    (grows : (p.attempt run file).2.shapes.Grows shapes) {text : String}
    (rewritten : ((p.attempt run file).1.result shapes).rewritten = some text) :
    ∃ unit typed, SourceUnit.scan file.path file.text = .ok unit ∧
      ((p.attempt run file).1.result shapes).typed = some typed ∧
      Written p file unit typed text := by
  cases read : SourceUnit.scan file.path file.text with
  | error e =>
      rw [attempt_of_error read] at rewritten
      cases rewritten
  | ok unit =>
      rw [attempt_of_scan read] at rewritten grows ⊢
      rcases passed : p.validator.validate p.source unit run with ⟨failure | u, last⟩
      · rw [passed] at rewritten
        cases rewritten
      · rw [passed] at rewritten grows
        obtain ⟨own, finished, accepted⟩ := Attempt.finish_written read passed builtin
        have result : Attempt.result shapes (.passed file unit u) =
          Attempt.written file unit u shapes own := finished
        dsimp only at rewritten ⊢
        rw [result] at rewritten ⊢
        obtain rfl : own = text := Option.some.inj rewritten
        exact ⟨unit, _, rfl, rfl, validated_populates read passed grows, accepted⟩

/-- Every file is attempted with what was known before it, and the run goes on to know more. -/
theorem attempts_lead (p : Preprocessor) (run : RunRecord) (files : List SourceFile) :
    List.Forall₂ (fun file a => ∃ before, a = (p.attempt before file).1 ∧
        (p.attempt before file).2.shapes.Grows (p.attempts run files).2.shapes)
      files (p.attempts run files).1 := by
  induction files generalizing run with
  | nil => exact .nil
  | cons file rest ih => exact .cons ⟨run, rfl, p.attempts_grow _ rest⟩ (ih _)

/-- What a run has written back. A row type that the source leaves bare gets as many fields as every
statement of the unit that populates it was returned columns, and the text that is written can be
read again exactly if no row got an empty list. -/
theorem run_written (p : Preprocessor) (files : List SourceFile) (stored : Option Database) :
    List.Forall₂ (fun file r => ∀ text, r.rewritten = some text →
        ∃ unit typed, SourceUnit.scan file.path file.text = .ok unit ∧ r.typed = some typed ∧
          Written p file unit typed text)
      files (p.run files stored).units := by
  have none_ : ({} : ShapeRegistry).Builtin := fun _ _ known => nomatch known
  have builtin := (p.attempts_grow { stored } files).builtin none_
  rw [run_units, List.forall₂_map_right_iff]
  refine (attempts_lead p { stored } files).imp fun file a one text rewritten => ?_
  obtain ⟨run, rfl, grows⟩ := one
  exact attempt_written builtin grows rewritten

/-- A statement that returns no columns populates a row, which is written back with an empty list of
fields. -/
theorem run_written_empty :
    let p : Preprocessor := ⟨{}, .apart (.ok {}), .ofDialect .sqlite, .builtins⟩
    let source := "unit U row R fn m()\x7bmany R\x7bCREATE TABLE t (a)\x7d\x7d"
    let text := "unit U row R() fn m()\x7bmany R\x7bCREATE TABLE t (a)\x7d\x7d"
    (p.run [⟨"u", source⟩]).units.map (·.rewritten) = [some text] ∧
      ∀ again, SourceUnit.scan "u" text ≠ .ok again := by
  intro p source text
  have unread : (SourceUnit.scan "u" text).toOption.isNone = true := by decide +kernel
  refine ⟨by decide +kernel, fun again read => ?_⟩
  rw [read] at unread
  cases unread

end Preprocessor

end SqlUnits
