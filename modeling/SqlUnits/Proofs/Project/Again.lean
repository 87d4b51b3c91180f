import SqlUnits.Project.Run
import SqlUnits.Proofs.Check.Repeating
import SqlUnits.Proofs.Unit.Rewriting
/-!
Runs over what a run has written. On a source of connections that repeats itself nothing is
rewritten any more, and the artifact says the same, but that rows are declared now.
-/

namespace SqlUnits

variable {f : Filling} {unit unit' : SourceUnit} {edits : EditList} {shapes : ShapeRegistry}

/-- The fields that are discovered for a row. -/
def discovered? (unit : SourceUnit) (shapes : ShapeRegistry) (r : RowDecl) :
    Option (List TypedField) :=
  (shapes.get? (unit.qualified r.name.name)).bind discoveredFields

theorem TypedUnit.rowEdit?_eq (unit : SourceUnit) (shapes : ShapeRegistry) (r : RowDecl) :
    rowEdit? unit shapes r = if r.fields.isSome then none
      else (discovered? unit shapes r).map fun fields =>
        .insertion r.insertionPoint (renderFields fields) := by
  unfold rowEdit? discovered?
  split
  · rfl
  · cases shapes.get? (unit.qualified r.name.name) with
    | none => rfl
    | some shape => cases found : discoveredFields shape <;> simp [found]

/-- No row of a unit is discovered without a field. -/
def HasFields (unit : SourceUnit) (shapes : ShapeRegistry) : Prop :=
  ∀ r ∈ unit.rows, r.fields = none → discovered? unit shapes r ≠ some []

theorem fields_found (edits : EditList) (builtin : shapes.Builtin) {r : RowDecl}
    (some_ : discovered? unit shapes r ≠ some []) :
    (Filling.found unit edits shapes).fields r = discovered? unit shapes r := by
  show ((shapes.get? (unit.qualified r.name.name)).filter (·.IsWritten)).bind discoveredFields = _
  unfold discovered? at some_ ⊢
  cases recorded : shapes.get? (unit.qualified r.name.name) with
  | none => rfl
  | some shape =>
      rw [recorded, Option.bind_some] at some_
      rw [Option.bind_some]
      by_cases written : shape.IsWritten
      · rw [Option.filter_some, if_pos (by simpa using written), Option.bind_some]
      · rw [Option.filter_some, if_neg (by simpa using written), Option.bind_none]
        cases made : discoveredFields shape with
        | none => rfl
        | some fields =>
            refine absurd ?_ written
            refine RowShape.isWritten_of_discovered made ?_ (builtin _ shape recorded)
            rintro rfl
            exact some_ made

/-- The edits of rows are those that fill in what was discovered. -/
theorem rowEdits_found (edits : EditList) (builtin : shapes.Builtin)
    (hasFields : HasFields unit shapes) :
    TypedUnit.rowEdits unit shapes =
      (unit.rows.filterMap (·.edit? (.found unit edits shapes))).foldlM EditList.add {} := by
  unfold TypedUnit.rowEdits
  refine congrArg (·.foldlM EditList.add {}) (List.filterMap_congr fun r member => ?_)
  rw [TypedUnit.rowEdit?_eq]
  unfold RowDecl.edit?
  cases declared : r.fields with
  | some fields => rfl
  | none =>
      rw [fields_found edits builtin (hasFields r member declared)]
      rfl

/-- What is discovered for the rows of a unit is what they are filled in with. -/
def Filling.Discovers (f : Filling) (unit : SourceUnit) (shapes : ShapeRegistry) : Prop :=
  ∀ r ∈ unit.rows, r.fields = none → f.fields r = discovered? unit shapes r

theorem discovered?_filled (filled : unit.Filled f unit') {r r' : RowDecl} (row : r.Filled f r') :
    discovered? unit' shapes r' = discovered? unit shapes r := by
  rw [discovered?, discovered?, filled.qualified, row.name]

/-- Nothing is left to write in a unit that is filled in. -/
theorem rowEdits_filled (filled : unit.Filled f unit') (discovers : f.Discovers unit shapes) :
    TypedUnit.rowEdits unit' shapes = .ok {} := by
  have none : unit'.rows.filterMap (TypedUnit.rowEdit? unit' shapes) = [] := by
    rw [← List.filterMap_none unit.rows]
    refine filterMap_eq_of_forall₂ filled.rows fun r member r' row => ?_
    rw [TypedUnit.rowEdit?_eq, discovered?_filled filled row]
    obtain ⟨line, fields⟩ := row.fields
    cases declared : r.fields with
    | some list =>
        rw [fields, declared]
        rfl
    | none =>
        rw [fields, declared, discovers r member declared]
        cases discovered? unit shapes r <;> rfl
  unfold TypedUnit.rowEdits
  rw [none]
  rfl

/-- The artifact of a unit that is filled in says the same, but that rows are declared. -/
theorem build_filled (filled : unit.Filled f unit') (discovers : f.Discovers unit shapes)
    (hasFields : HasFields unit shapes) (methods : List TypedMethod) :
    (TypedUnit.build unit' methods shapes).unmarked =
      (TypedUnit.build unit methods shapes).unmarked := by
  have rows : (unit'.rows.filterMap fun r =>
        TypedRow.ofDecl? r (shapes.get? (unit'.qualified r.name.name))).map (·.unmarked) =
      (unit.rows.filterMap fun r =>
        TypedRow.ofDecl? r (shapes.get? (unit.qualified r.name.name))).map (·.unmarked) := by
    rw [List.map_filterMap, List.map_filterMap]
    refine filterMap_eq_of_forall₂ filled.rows fun r member r' row => ?_
    rw [filled.qualified, row.name]
    obtain ⟨line, fields⟩ := row.fields
    cases declared : r.fields with
    | some list =>
        rw [declared] at fields
        simp only [TypedRow.ofDecl?, fields, declared, Option.some_or, row.name]
    | none =>
        have discovered := discovers r member declared
        have some_ := hasFields r member declared
        rw [declared, Option.none_or, discovered] at fields
        unfold discovered? at fields some_
        cases recorded : shapes.get? (unit.qualified r.name.name) with
        | none =>
            rw [recorded] at fields
            simp only [TypedRow.ofDecl?, fields, declared, Option.bind_none, Option.map_none]
        | some shape =>
            rw [recorded, Option.bind_some] at fields some_
            cases made : discoveredFields shape with
            | none =>
                rw [made, Option.map_none] at fields
                simp only [TypedRow.ofDecl?, fields, declared, made, Option.map_none]
            | some list =>
                rw [made, Option.map_some] at fields
                have nonempty : list ≠ [] := by
                  rintro rfl
                  exact some_ made
                have same := TypedRow.ofDeclared_discovered r.name.name line made nonempty
                simp only [TypedRow.ofDecl?, fields, declared, made, Option.map_some, row.name,
                  same]
                rfl
  unfold TypedUnit.build TypedUnit.unmarked
  simp only [rows, filled.name, filled.path]

/-- What is made of a unit that passed, once its edits are gathered in a text. -/
def Attempt.written (file : SourceFile) (unit : SourceUnit) (u : ValidatedUnit)
    (shapes : ShapeRegistry) (text : String) : UnitResult :=
  { path := file.path, unit := some unit.name.name, rewritten := some text
    typed := some (TypedUnit.build unit u.methods shapes), diagnostics := u.diagnostics }

theorem Attempt.finish_eq_written {file : SourceFile} {u : ValidatedUnit} {rows all : EditList}
    {text : String} (rowEdits : TypedUnit.rowEdits unit shapes = .ok rows)
    (extended : u.edits.extend rows = .ok all) (applied : all.apply unit.source = .ok text) :
    finish file unit u shapes = written file unit u shapes text := by
  unfold finish
  simp only [rowEdits, extended, applied, bind, Except.bind]
  rfl

theorem Attempt.finish_rewritten {file : SourceFile} {u : ValidatedUnit} {text : String}
    (rewritten : (finish file unit u shapes).rewritten = some text) :
    ∃ rows all, TypedUnit.rowEdits unit shapes = .ok rows ∧ u.edits.extend rows = .ok all ∧
      all.apply unit.source = .ok text := by
  unfold finish at rewritten
  cases rowEdits : TypedUnit.rowEdits unit shapes with
  | error e => simp [rowEdits, bind, Except.bind] at rewritten
  | ok rows =>
      cases extended : u.edits.extend rows with
      | error e => simp [rowEdits, extended, bind, Except.bind] at rewritten
      | ok all =>
          cases applied : all.apply unit.source with
          | error e => simp [rowEdits, extended, applied, bind, Except.bind] at rewritten
          | ok made =>
              simp only [rowEdits, extended, applied, bind, Except.bind, Option.some.injEq]
                at rewritten
              subst rewritten
              exact ⟨rows, all, rfl, extended, applied⟩

theorem hasFields_of_build {methods : List TypedMethod}
    (some_ : ∀ row ∈ (TypedUnit.build unit methods shapes).rows, row.declared = false →
      row.fields ≠ []) : HasFields unit shapes := by
  intro r member declared discovered
  unfold discovered? at discovered
  obtain ⟨shape, recorded, made⟩ := Option.bind_eq_some_iff.1 discovered
  refine some_ ⟨r.name.name, shape.isMeta, false, []⟩ ?_ rfl rfl
  refine List.mem_filterMap.2 ⟨r, member, ?_⟩
  unfold TypedRow.ofDecl?
  simp only [recorded, declared, made, Option.map_some]

namespace Preprocessor

variable {p : Preprocessor} {file : SourceFile} {stored : Option Database}

theorem run_single (p : Preprocessor) (file : SourceFile) (stored : Option Database) :
    (p.run [file] stored).units =
      [withSeverities p.config
        ((p.attempt { stored } file).1.result (p.attempt { stored } file).2.shapes)] :=
  rfl

theorem attempt_rewritten {run : RunRecord} {text : String}
    (rewritten : ((p.attempt run file).1.result (p.attempt run file).2.shapes).rewritten =
      some text) :
    ∃ unit u last, SourceUnit.scan file.path file.text = .ok unit ∧
      p.validator.validate p.source unit run = (.ok u, last) ∧
      p.attempt run file = (.passed file unit u, last) := by
  unfold attempt at rewritten ⊢
  cases read : SourceUnit.scan file.path file.text with
  | error e => simp [read, Attempt.result] at rewritten
  | ok unit =>
      rcases passed : p.validator.validate p.source unit run with ⟨failure | u, last⟩
      · simp [read, passed, Attempt.result] at rewritten
      · exact ⟨unit, u, last, rfl, passed, by simp only [passed]⟩

/-- What is made of a file with the shapes that its own check leaves. -/
def own (p : Preprocessor) (run : RunRecord) (file : SourceFile) : UnitResult :=
  (p.attempt run file).1.result (p.attempt run file).2.shapes

/-- What was made of a file is made again of the text that was written for it. -/
theorem own_again {R : Connection → Connection → Prop} (builtins : p.registry.HasBuiltins)
    (repeats : p.checker.Repeats R) {run run' : RunRecord} (start : run.shapes = {})
    (start' : run'.shapes = {})
    (opens : ∀ c, (p.source.connect (run.stored.getD {})).1 = .ok c →
      ∃ c', (p.source.connect (run'.stored.getD {})).1 = .ok c' ∧ R c c')
    {text : String} {typed : TypedUnit} (rewritten : (p.own run file).rewritten = some text)
    (artifact : (p.own run file).typed = some typed)
    (some_ : ∀ row ∈ typed.rows, row.declared = false → row.fields ≠ []) :
    ∃ typed', p.own run' ⟨file.path, text⟩ = { p.own run file with typed := some typed' } ∧
      typed'.unmarked = typed.unmarked := by
  obtain ⟨unit, u, last, read, passed, attempted⟩ := attempt_rewritten rewritten
  have own : p.own run file = (Attempt.passed file unit u).result last.shapes := by
    unfold Preprocessor.own
    rw [attempted]
  rw [own] at rewritten artifact ⊢
  obtain ⟨rows, all, rowEdits, extended, applied⟩ := Attempt.finish_rewritten rewritten
  have result : Attempt.result last.shapes (.passed file unit u) =
      Attempt.written file unit u last.shapes text :=
    Attempt.finish_eq_written rowEdits extended applied
  rw [result] at artifact ⊢
  obtain rfl : TypedUnit.build unit u.methods last.shapes = typed := Option.some.inj artifact
  have hasFields := hasFields_of_build some_
  have empty : run.shapes.Builtin := by
    rw [start]
    exact fun _ _ known => nomatch known
  obtain ⟨builtin, compatible, again⟩ := Validator.validate_again builtins repeats
    (SourceUnit.scan_readsValue read) passed empty (start'.trans start.symm) opens
  -- what was found is what the text has been filled in with
  have found := Filling.found_foundIn unit last.shapes compatible
  obtain ⟨edits, rows', all', text', unit', added, addedRows, extended', applied', read', same⟩ :=
    SourceUnit.scan_fill read (.found unit u.edits last.shapes)
  have filled := SourceUnit.filled_of_onLines same
  obtain ⟨gathered, last', passed', shapes'⟩ := again _ unit' filled found
  obtain rfl : u.edits = edits := Except.ok.inj (gathered.symm.trans added)
  rw [rowEdits_found u.edits builtin hasFields, addedRows] at rowEdits
  obtain rfl : rows' = rows := Except.ok.inj rowEdits
  obtain rfl : all' = all := Except.ok.inj (extended'.symm.trans extended)
  rw [SourceUnit.scan_source read, applied'] at applied
  obtain rfl : text' = text := Except.ok.inj applied
  have discovers : (Filling.found unit u.edits last.shapes).Discovers unit last.shapes :=
    fun r member declared => fields_found u.edits builtin (hasFields r member declared)
  have own' : p.own run' ⟨file.path, text'⟩ =
      Attempt.written ⟨file.path, text'⟩ unit' { u with edits := {} } last.shapes text' := by
    unfold Preprocessor.own attempt
    simp only [read', passed', shapes']
    refine Attempt.finish_eq_written (rowEdits_filled filled discovers) rfl ?_
    rw [SourceUnit.scan_source read', EditList.apply_empty]
  refine ⟨TypedUnit.build unit' u.methods last.shapes, ?_,
    build_filled filled discovers hasFields u.methods⟩
  rw [own']
  unfold Attempt.written
  rw [filled.name]

/-- A run over what a run has written. The connections that are opened repeat themselves, every
built-in type has its own mapper, and no row is discovered without a field, as every statement that
populates a row returns a column. Then the text stays as it is, the diagnostics are the same, and so
is the artifact, but for what is said of where the fields of rows are written. -/
theorem run_again {R : Connection → Connection → Prop} (builtins : p.registry.HasBuiltins)
    (repeats : p.checker.Repeats R) {stored' : Option Database}
    (opens : ∀ c, (p.source.connect (stored.getD {})).1 = .ok c →
      ∃ c', (p.source.connect (stored'.getD {})).1 = .ok c' ∧ R c c')
    {r : UnitResult} {text : String} {typed : TypedUnit}
    (first : (p.run [file] stored).units = [r]) (rewritten : r.rewritten = some text)
    (artifact : r.typed = some typed)
    (some_ : ∀ row ∈ typed.rows, row.declared = false → row.fields ≠ []) :
    ∃ typed', (p.run [⟨file.path, text⟩] stored').units = [{ r with typed := some typed' }] ∧
      typed'.unmarked = typed.unmarked := by
  rw [run_single] at first
  obtain ⟨rfl⟩ := first
  have shapes : ({ stored } : RunRecord).shapes = {} := rfl
  have shapes' : ({ stored := stored' } : RunRecord).shapes = {} := rfl
  obtain ⟨typed', again, unmarked⟩ := own_again builtins repeats shapes shapes' opens rewritten
    artifact some_
  refine ⟨typed', ?_, unmarked⟩
  rw [run_single]
  exact congrArg (fun r => [withSeverities p.config r]) again

theorem run_again_discovered :
    let p : Preprocessor := ⟨{}, .apart (.ok {}), .ofDialect .sqlite, .builtins⟩
    let source := "unit A row R fn m(x=1)\x7bone R\x7bSELECT 1 AS n\x7dvalue _\x7bSELECT 1\x7d\x7d"
    let text := "unit A row R(n: long) fn m(x: int=1)" ++
      "\x7bone R\x7bSELECT 1 AS n\x7dvalue long\x7bSELECT 1\x7d\x7d"
    ∃ r typed typed', (p.run [⟨"a", source⟩]).units = [r] ∧ r.rewritten = some text ∧
      r.typed = some typed ∧ (p.run [⟨"a", text⟩]).units = [{ r with typed := some typed' }] ∧
      typed'.unmarked = typed.unmarked := by
  intro p source text
  have shown : (p.run [⟨"a", source⟩]).units.map (fun r => (r.rewritten,
      r.typed.map (·.rows.map fun row => (row.declared, row.fields.length)))) =
        [(some text, some [(false, 1)])] := by
    decide +kernel
  obtain ⟨r, first, same⟩ := List.map_eq_singleton_iff.1 shown
  obtain ⟨rewritten, artifact⟩ := Prod.mk.inj same
  obtain ⟨typed, artifact, rows⟩ := Option.map_eq_some_iff.1 artifact
  have some_ : ∀ row ∈ typed.rows, row.declared = false → row.fields ≠ [] := by
    intro row member _ empty
    have inside := List.mem_map_of_mem (f := fun row => (row.declared, row.fields.length)) member
    rw [rows, empty] at inside
    simp at inside
  obtain ⟨typed', again, unmarked⟩ := run_again (R := Eq) Registry.hasBuiltins
    (Checker.ofDialect_repeats Connection.repeats_eq .sqlite)
    (fun c opened => ⟨c, opened, rfl⟩) first rewritten artifact some_
  exact ⟨r, typed, typed', first, rewritten, artifact, again, unmarked⟩

end Preprocessor

end SqlUnits
