import SqlUnits.Proofs.Access.RowFactory
import SqlUnits.Proofs.Check.Generating
/-!
Rows and values that were checked are read at run time. The fields of a row take as many columns
as every query that populates it returns, and so does the mapper of a value.
-/

namespace SqlUnits

/-! Fields that were checked, or discovered. -/

theorem TypedRow.ofDeclared_types (name : String) (fields : List FieldDecl)
    (shape : Option RowShape) :
    (ofDeclared name fields shape).fields.map (·.type) = fields.map (·.type) := by
  have types : (fun p : FieldDecl × Nat => p.1.type) = (·.type) ∘ Prod.fst := rfl
  simp only [ofDeclared, List.map_map]
  change fields.zipIdx.map (fun p : FieldDecl × Nat => p.1.type) = _
  rw [types, ← List.map_map, List.zipIdx_map_fst]

namespace DeclaredRow

variable {registry : Registry} {row : String} {fields : List FieldDecl}

theorem slots_eq_ok {slots : List Slot} (read : fields.mapM (slot registry row) = .ok slots) :
    ∃ mappers : List Mapper,
      List.Forall₂ (fun f m => ∃ type, f.type = .value type ∧ registry.resolve type = .ok m)
        fields mappers ∧ mappers.map (·.columns) = slots.map (·.width) := by
  have each := mapM_eq_ok_iff.1 read
  clear read
  induction each with
  | nil => exact ⟨[], .nil, rfl⟩
  | @cons field s fields slots one _ ih =>
      obtain ⟨mappers, reads, widths⟩ := ih
      unfold slot at one
      split at one
      · rename_i type isValue
        cases resolved : registry.resolve type with
        | error e => simp [resolved, Except.mapError, bind, Except.bind] at one
        | ok mapper =>
            simp only [resolved, Except.mapError, bind, Except.bind, pure, Except.pure,
              Except.ok.injEq] at one
            subst one
            exact ⟨mapper :: mappers, .cons ⟨type, isValue, resolved⟩ reads, by simp [widths]⟩
      · cases one

/-- Declared fields that were accepted take all columns. -/
theorem check_fits {isMeta : Bool} {columns : List ColumnInfo}
    (checked : check registry row fields isMeta columns = .ok ()) (name : String)
    (shape : Option RowShape) :
    (TypedRow.ofDeclared name fields shape).Fits registry columns.length isMeta := by
  have types := TypedRow.ofDeclared_types name fields shape
  cases isMeta with
  | true =>
      simp only [check, if_true, checkMeta] at checked
      split at checked
      · cases checked
      · rename_i all
        split at checked
        · rename_i length
          constructor
          · intro field member
            have inside := List.mem_map_of_mem (f := (·.type)) member
            rw [types] at inside
            obtain ⟨decl, declared, same⟩ := List.mem_map.1 inside
            rw [← same]
            simpa using List.find?_eq_none.1 all decl declared
          · rw [← length, ← List.length_map (·.type), types, List.length_map]
        · cases checked
  | false =>
      simp only [check, Bool.false_eq_true, if_false] at checked
      cases read : fields.mapM (slot registry row) with
      | error e => simp [read, bind, Except.bind] at checked
      | ok slots =>
          simp only [read, bind, Except.bind] at checked
          split at checked
          · cases checked
          · rename_i consumed
            obtain ⟨mappers, reads, widths⟩ := slots_eq_ok read
            refine @TypedRow.Fits.data _ _ _ mappers ?_ ?_
            · rw [← List.forall₂_map_left_iff (f := FieldDecl.type)
                (R := fun type m => ∃ t, type = .value t ∧ registry.resolve t = .ok m),
                ← types, List.forall₂_map_left_iff] at reads
              exact reads
            · rw [widths]
              exact not_not.1 consumed

end DeclaredRow

theorem ValueType.mem_builtins_of_widensTo {t u : ValueType} (builtin : t ∈ builtins)
    (widens : t.widensTo u = true) : u ∈ builtins := by
  rcases widensTo_iff.1 widens with rfl | ⟨_, _, _, rank, _⟩
  · exact builtin
  · cases u <;> cases rank <;> decide

theorem RowShape.Covers.builtin {shape : RowShape} {isMeta : Bool} {columns : List ColumnInfo}
    (covers : shape.Covers isMeta columns)
    (typed : ∀ column ∈ columns, ∃ type ∈ ValueType.builtins, column.valueType = some type) :
    ∀ column ∈ shape.columns, ∀ t, column.valueType = some t → t ∈ ValueType.builtins := by
  intro column member t type
  obtain ⟨seen, inside, below⟩ := (forall₂_mem covers.below).2 column member
  obtain ⟨first, builtin, known⟩ := typed seen inside
  obtain ⟨wide, same, widens⟩ := below first known
  rw [type] at same
  cases same
  exact ValueType.mem_builtins_of_widensTo builtin widens

theorem TypedField.takes_readBy {registry : Registry} (builtins : registry.HasBuiltins)
    {columns : List ColumnInfo} {fields : List TypedField}
    (takes : List.Forall₂ TypedField.Takes columns fields) :
    ∃ mappers, List.Forall₂ (TypedField.ReadBy registry) fields mappers ∧
      total (mappers.map (·.columns)) = columns.length := by
  induction takes with
  | nil => exact ⟨[], .nil, rfl⟩
  | cons one _ ih =>
      obtain ⟨_, type, _, isValue, builtin, _⟩ := one
      obtain ⟨mappers, reads, widths⟩ := ih
      refine ⟨.builtin type :: mappers, .cons ⟨type, isValue, builtins.resolve builtin⟩ reads, ?_⟩
      rw [List.map_cons, total_cons, widths, List.length_cons, Nat.add_comm]
      rfl

/-- Fields that were discovered take all columns of every query that populated the row. -/
theorem RowShape.Covers.fits {registry : Registry} (builtins : registry.HasBuiltins)
    {shape : RowShape} {isMeta : Bool} {columns : List ColumnInfo}
    (covers : shape.Covers isMeta columns) (typed : ColumnsTyped isMeta columns)
    {fields : List TypedField} (made : discoveredFields shape = some fields) (name : String) :
    (TypedRow.mk name shape.isMeta false fields).Fits registry columns.length isMeta := by
  obtain ⟨mode, below⟩ := id covers
  have describes := fieldsFrom_describes made
  rw [mode] at describes ⊢
  cases isMeta with
  | true =>
      constructor
      · intro field member
        exact eq_of_beq (TypedField.Describes.isDescriptor describes field member)
      · exact (below.length_eq.trans describes.length_eq).symm
  | false =>
      have typed : ∀ column ∈ columns, ∃ type ∈ ValueType.builtins,
          column.valueType = some type := by
        rcases typed with isMeta | typed
        · cases isMeta
        · exact typed
      have takes := TypedField.takes below describes
        (fun c member => (typed c member).imp fun t known => known.2) (covers.builtin typed)
      obtain ⟨mappers, reads, widths⟩ := TypedField.takes_readBy builtins takes
      exact .data reads widths

/-! Statements that returned columns. -/

namespace Validator

/-- The columns that the query of a statement returns on a connection. -/
def Returns (v : Validator) (params : ParamTable) (site : Site) (c : Connection)
    (columns : List ColumnInfo) : Prop :=
  ∃ sql s values, v.bound params site c = some (sql, s, values) ∧
    (c.describe sql s values).1 = .ok columns

variable {v : Validator} {params : ParamTable} {site : Site} {s t : CheckState}
  {checked : Checked} {columns : List ColumnInfo}

/-- A statement that passed was checked against the columns that its query returns. -/
theorem statement_returns (runs : Runs (v.statement params site) s checked t)
    (returned : v.Returns params site s.connection columns) :
    (∀ name, checked.statement.row = some name → ∃ row typed u, row.name = name ∧
      site.statement.target = .row row ∧ Runs (v.checkRow site typed row columns) u checked t) ∧
    ∀ type, checked.statement.valueType = some type → ∃ declared,
      DeclaredValue.check v.registry site.statement.convention site.owner declared columns =
        .ok type := by
  by_cases proc : site.statement.convention = .proc
  · obtain ⟨_, _, _, _, _, _, rest⟩ := (runs_statement_proc proc).1 runs
    obtain ⟨_, _, _, rfl⟩ := runs_checkObject.1 rest
    exact ⟨by simp [typedStart], by simp [typedStart]⟩
  by_cases nextval : site.statement.convention = .nextval
  · obtain ⟨_, _, rest⟩ := (runs_statement_nextval nextval).1 runs
    obtain ⟨_, _, _, rfl⟩ := runs_checkObject.1 rest
    exact ⟨by simp [typedStart], by simp [typedStart]⟩
  obtain ⟨text, q, args, written, parsed, bound, rest⟩ := (runs_statement_sql proc nextval).1 runs
  split at rest
  · obtain ⟨_, _, _, _, _, _, _, rfl⟩ := runs_checkMutation.1 rest
    exact ⟨by simp [typedStart], by simp [typedStart]⟩
  obtain ⟨columns', u, discovered, passed⟩ := runs_checkQuery.1 rest
  obtain ⟨prepared, values, stored, described, rfl⟩ := runs_discover.1 discovered
  have same : columns' = columns := by
    obtain ⟨sql, prepared', values', again, described'⟩ := returned
    simp only [Validator.bound, written, parsed, bound, stored, Except.toOption,
      Option.bind_eq_bind, Option.bind_some, Option.pure_def, Option.some.injEq,
      Prod.mk.injEq] at again
    obtain ⟨rfl, rfl, rfl⟩ := again
    rw [described] at described'
    exact Except.ok.inj described'
  subst same
  cases target : site.statement.target with
  | row row =>
      rw [target] at passed
      obtain ⟨_, _, _, _, rfl, rfl⟩ := runs_checkRow.1 passed
      constructor
      · intro name named
        cases named
        exact ⟨row, _, _, rfl, rfl, passed⟩
      · simp [typedStart]
  | value declared span =>
      rw [target] at passed
      obtain ⟨made, rfl⟩ := passed
      unfold valueChecked at made
      cases found : DeclaredValue.check v.registry site.statement.convention site.owner declared
          columns' with
      | error e => simp [found, bind, Except.bind] at made
      | ok kind =>
          simp only [found, bind, Except.bind, pure, Except.pure, Except.ok.injEq] at made
          subst made
          refine ⟨by simp [typedStart], ?_⟩
          intro type known
          cases known
          exact ⟨declared, found⟩
  | none =>
      rw [target] at passed
      obtain ⟨rfl, rfl⟩ := passed
      exact ⟨by simp [typedStart], by simp [typedStart]⟩

/-- A statement that populates a row was checked against the columns that its query returns. -/
theorem statement_populates (runs : Runs (v.statement params site) s checked t) {row : Ident}
    (target : site.statement.target = .row row) (rows : site.statement.convention.isRow = true) :
    ∃ columns, v.Returns params site s.connection columns ∧
      ∃ typed u, Runs (v.checkRow site typed row columns) u checked t := by
  obtain ⟨noProc, noNextval, noMutation⟩ : site.statement.convention ≠ .proc ∧
      site.statement.convention ≠ .nextval ∧ site.statement.convention.isMutation = false := by
    cases keyword : site.statement.convention <;> rw [keyword] at rows <;> cases rows <;>
      exact ⟨nofun, nofun, rfl⟩
  obtain ⟨text, q, args, written, parsed, bound, rest⟩ :=
    (runs_statement_sql noProc noNextval).1 runs
  rw [noMutation, if_neg Bool.false_ne_true] at rest
  obtain ⟨columns, u, discovered, passed⟩ := runs_checkQuery.1 rest
  obtain ⟨prepared, values, stored, described, rfl⟩ := runs_discover.1 discovered
  rw [target] at passed
  refine ⟨columns, ⟨q.sql, prepared, values, ?_, described⟩, _, _, passed⟩
  simp only [Validator.bound, written, parsed, bound, stored, Except.toOption,
    Option.bind_eq_bind, Option.bind_some, Option.pure_def]

theorem Returns.builtin {c : Connection} (returned : v.Returns params site c columns) :
    ∀ column ∈ columns, ∀ t, column.valueType = some t → t ∈ ValueType.builtins := by
  obtain ⟨_, _, _, _, described⟩ := returned
  exact Connection.describe_mem described

/-- Once a row has been checked, it fits the columns of the query as long as the run goes on. -/
theorem checkRow_fits (rowsChecked : v.checkRowTypes = true) (builtins : v.registry.HasBuiltins)
    {typed : TypedStatement} {row : Ident} {shapes : ShapeRegistry}
    (runs : Runs (v.checkRow site typed row columns) s checked t) (grows : t.shapes.Grows shapes)
    (known : ∀ column ∈ columns, ∀ t, column.valueType = some t → t ∈ ValueType.builtins)
    (declared : ∃ decl, site.unit.row? row.name = some decl) (methods : List TypedMethod) :
    ∃ made, (TypedUnit.build site.unit methods shapes).row? row.name = some made ∧
      made.Fits v.registry columns.length (site.statement.convention == .metadata) := by
  obtain ⟨fits, shape, shapes', recorded, rfl, rfl⟩ := runs_checkRow.1 runs
  obtain ⟨decl, declared⟩ := declared
  rw [declared, Option.bind_some] at fits
  cases fields : decl.fields with
  | some list =>
      rw [fields] at fits
      simp only [checkFields, rowsChecked, if_true] at fits
      refine ⟨_, SourceUnit.row?_build declared ?_ methods, DeclaredRow.check_fits fits
        decl.name.name (shapes.get? (site.unit.qualified row.name))⟩
      simp only [TypedRow.ofDecl?, fields]
  | none =>
      rw [fields] at fits
      have typed := columnsTyped fits known
      obtain ⟨get, covers, _, _⟩ := ShapeRegistry.record_eq_ok recorded
      obtain ⟨last, found, wide⟩ := grows.below _ shape ((get _).trans (if_pos rfl))
      have covers := covers.trans wide
      have isTyped := covers.isTyped (typed.imp_right fun all c member =>
        (all c member).imp fun t known => known.2)
      obtain ⟨list, made⟩ := fieldsFrom_isSome isTyped [] 0
      have made : discoveredFields last = some list := made
      refine ⟨_, SourceUnit.row?_build declared ?_ methods,
        covers.fits builtins typed made decl.name.name⟩
      simp only [TypedRow.ofDecl?, fields, found, made, Option.map_some]

end Validator

/-- The type of a value has a mapper that takes all columns. -/
theorem DeclaredValue.check_columns {registry : Registry} (builtins : registry.HasBuiltins)
    {convention : Convention} {owner : String} {declared : Option ValueType}
    {columns : List ColumnInfo} {type : ValueType}
    (found : check registry convention owner declared columns = .ok type)
    (known : ∀ column ∈ columns, ∀ t, column.valueType = some t → t ∈ ValueType.builtins) :
    ∃ mapper, registry.resolve type = .ok mapper ∧ mapper.columns = columns.length := by
  cases declared with
  | none =>
      have declared := (check_discovered builtins found known).1
      refine ⟨_, builtins.resolve declared, ?_⟩
      unfold check at found
      simp only [pure, Except.pure, bind, Except.bind, throw, throwThe,
        MonadExceptOf.throw] at found
      split at found
      · cases found
      · rename_i length
        exact (not_not.1 length).symm
  | some wanted =>
      unfold check at found
      cases resolved : registry.resolve wanted with
      | error e => simp [resolved, Except.mapError, bind, Except.bind] at found
      | ok mapper =>
          simp only [resolved, Except.mapError, pure, Except.pure, bind, Except.bind, throw,
            throwThe, MonadExceptOf.throw] at found
          split at found
          · cases found
          · rename_i length
            have same : wanted = type := by
              generalize columns.head?.bind (·.valueType) = first at found
              cases first with
              | some first =>
                  dsimp only at found
                  split at found
                  · exact Except.ok.inj found
                  · cases found
              | none =>
                  dsimp only at found
                  split at found
                  · exact Except.ok.inj found
                  · cases found
            exact ⟨mapper, same ▸ resolved, (not_not.1 length).symm⟩

theorem SourceUnit.checkedSites_eq {params : ParamTable} {unit : SourceUnit}
    {methods : List TypedMethod}
    (typed : List.Forall₂ (MethodDecl.TypedAs params) unit.methods methods) :
    unit.checkedSites methods = unit.sites.zip (methods.flatMap (·.statements)) := by
  have each : ∀ {decls : List MethodDecl} {methods : List TypedMethod},
      List.Forall₂ (MethodDecl.TypedAs params) decls methods →
      ((decls.zip methods).flatMap fun pair =>
        (pair.1.statements.zip pair.2.statements).map fun s =>
          ((⟨unit, pair.1, s.1⟩ : Site), s.2)) =
      (decls.flatMap fun method => method.statements.map (⟨unit, method, ·⟩)).zip
        (methods.flatMap (·.statements)) := by
    intro decls methods typed
    induction typed with
    | nil => rfl
    | @cons decl method decls methods one _ ih =>
        rw [List.zip_cons_cons, List.flatMap_cons, ih, List.flatMap_cons, List.flatMap_cons,
          List.zip_append (by rw [List.length_map, one.statements]), List.zip_map_left]
        rfl
  exact each typed

namespace Validator

variable {v : Validator} {unit : SourceUnit} {u : ValidatedUnit}

/-- The connection before the statement at a place is checked: those before it took their step. -/
def reached (v : Validator) (params : ParamTable) (unit : SourceUnit) (opened : Connection)
    (place : Nat) : Connection :=
  (unit.sites.take place).foldl (fun c site => v.probe params site c) opened

theorem Passing.at {run next : RunRecord} {opened : Connection} {t : CheckState}
    (passing : Passing v unit u run next opened t) {place : Nat} {site : Site}
    {typed : TypedStatement}
    (here : (unit.sites.zip (u.methods.flatMap (·.statements)))[place]? = some (site, typed)) :
    ∃ before checked after, Runs (v.statement u.params site) before checked after ∧
      before.connection = v.reached u.params unit opened place ∧ checked.statement = typed ∧
      after.shapes.Grows next.shapes := by
  have trace := passing.trace
  rw [SourceUnit.checkedSites_eq passing.typed] at trace
  obtain ⟨inside, here⟩ := List.getElem?_eq_some_iff.1 here
  rw [← List.take_append_drop place (unit.sites.zip _), List.drop_eq_getElem_cons inside,
    here] at trace
  obtain ⟨before, checked, after, lead, runs, same, last⟩ := trace.split
  refine ⟨before, checked, after, runs, ?_, same, ?_⟩
  · have firsts : ((unit.sites.zip (u.methods.flatMap (·.statements))).take place).map Prod.fst =
        unit.sites.take place := by
      rw [List.length_zip] at inside
      rw [List.zip, List.take_zipWith, ← List.zip, List.map_fst_zip]
      rw [List.length_take, List.length_take]
      omega
    rw [lead.connection, reached, ← firsts, List.foldl_map]
  · rw [passing.shapes]
    exact last.grows

/-- What a unit was checked against is read at run time. Whatever else the run goes on to check,
the row that a statement populates has a factory which takes all columns of its query, and the
type of its value a mapper which does. -/
theorem validate_fetches {path text : String} {source : ConnectionSource}
    {run next last : RunRecord} {opened : Connection} {stored : Database}
    {place : Nat} {site : Site} {typed : TypedStatement} {columns : List ColumnInfo}
    (rowsChecked : v.checkRowTypes = true) (builtins : v.registry.HasBuiltins)
    (scanned : SourceUnit.scan path text = .ok unit)
    (passed : v.validate source unit run = (.ok u, next)) (leads : next.Leads last)
    (connected : source.connect (run.stored.getD {}) = (.ok opened, stored))
    (here : (unit.sites.zip (u.methods.flatMap (·.statements)))[place]? = some (site, typed))
    (returned : v.Returns u.params site (v.reached u.params unit opened place) columns)
    (some_ : columns ≠ []) (id : Nat) :
    (∀ name, typed.row = some name → ∃ row factory,
      (TypedUnit.build unit u.methods last.shapes).row? name = some row ∧
      RowFactory.build v.registry (row.rowType unit.name.name id)
        (site.statement.convention == .metadata) = .ok factory ∧
      factory.checkColumns columns.length = .ok () ∧
      (site.statement.convention ≠ .metadata → ∃ mappers,
        factory.Fetches v.registry row (row.rowType unit.name.name id) mappers
          columns.length)) ∧
    ∀ type, typed.valueType = some type → ∃ mapper,
      v.registry.resolve type = .ok mapper ∧ mapper.columns = columns.length := by
  obtain ⟨opened', stored', t, connected', passing⟩ := validate_passing passed
  rw [connected] at connected'
  cases connected'
  obtain ⟨before, checked, after, runs, reaches, rfl, grows⟩ := passing.at here
  rw [← reaches] at returned
  obtain ⟨rows, values⟩ := statement_returns runs returned
  have known := returned.builtin
  constructor
  · intro name named
    obtain ⟨row, _, _, rfl, target, checks⟩ := rows name named
    obtain ⟨among, _⟩ := List.of_mem_zip (List.mem_of_getElem? here)
    obtain ⟨method, known', among⟩ := List.mem_flatMap.1 among
    obtain ⟨statement, inside, rfl⟩ := List.mem_map.1 among
    obtain ⟨made, found, fits⟩ := checkRow_fits rowsChecked builtins checks
      (grows.trans leads.grows) known (SourceUnit.scan_row? scanned known' inside target) u.methods
    obtain ⟨factory, built, fills, fetches⟩ := fits.build builtins
      (fun none => some_ (List.eq_nil_of_length_eq_zero none)) unit.name.name id
    refine ⟨made, factory, found, built, fills, ?_⟩
    intro data
    exact fetches (beq_eq_false_iff_ne.2 data)
  · intro type named
    obtain ⟨declared, found⟩ := values type named
    exact DeclaredValue.check_columns builtins found known

theorem validate_fetches_pair :
    let v : Validator := {
      registry := Registry.builtins.register (.plain (.custom "pair") 2 (.composite []))
      checker := .generic }
    let text := "unit A row P(x: pair, n: long) fn m()\x7bmany P\x7bSELECT 1, 2, 3\x7d\x7d"
    ∃ unit u last row factory mappers, SourceUnit.scan "a" text = .ok unit ∧
      v.validate (.apart (.ok {})) unit {} = (.ok u, last) ∧
      (TypedUnit.build unit u.methods last.shapes).row? "P" = some row ∧
      RowFactory.build v.registry (row.rowType unit.name.name 0) false = .ok factory ∧
      factory.checkColumns 3 = .ok () ∧
      factory.Fetches v.registry row (row.rowType unit.name.name 0) mappers 3 := by
  intro v text
  have builtins : v.registry.HasBuiltins := by
    intro type member
    cases type with
    | custom name => simp [ValueType.builtins] at member
    | _ => rfl
  have shown : ((SourceUnit.scan "a" text).toOption.bind fun unit =>
      (v.validate (.apart (.ok {})) unit {}).1.toOption.bind fun u =>
        (unit.sites.zip (u.methods.flatMap (·.statements)))[0]?.bind fun place =>
          (v.bound u.params place.1 {}).bind fun bound =>
            (Connection.describe {} bound.1 bound.2.1 bound.2.2).1.toOption.map fun columns =>
              (place.1.statement.convention, place.2.row, columns.length)) =
      some (.many, some "P", 3) := by
    decide +kernel
  obtain ⟨unit, read, shown⟩ := Option.bind_eq_some_iff.1 shown
  obtain ⟨u, passed, shown⟩ := Option.bind_eq_some_iff.1 shown
  obtain ⟨⟨site, typed⟩, here, shown⟩ := Option.bind_eq_some_iff.1 shown
  obtain ⟨⟨sql, s, values⟩, bound, shown⟩ := Option.bind_eq_some_iff.1 shown
  obtain ⟨columns, described, shown⟩ := Option.map_eq_some_iff.1 shown
  simp only [Prod.mk.injEq] at shown
  obtain ⟨many, named, length⟩ := shown
  have read := eq_ok_of_toOption read
  obtain ⟨last, passed⟩ : ∃ last, v.validate (.apart (.ok {})) unit {} = (.ok u, last) :=
    ⟨_, Prod.ext (eq_ok_of_toOption passed) rfl⟩
  have returned : v.Returns u.params site (v.reached u.params unit {} 0) columns :=
    ⟨sql, s, values, bound, eq_ok_of_toOption described⟩
  have some_ : columns ≠ [] := by
    intro none
    simp [none] at length
  have data : site.statement.convention ≠ .metadata := by simp [many]
  obtain ⟨rows, _⟩ := validate_fetches rfl builtins read passed .done rfl here returned some_ 0
  obtain ⟨row, factory, found, built, fills, fetches⟩ := rows "P" named
  obtain ⟨mappers, fetches⟩ := fetches data
  rw [beq_eq_false_iff_ne.2 data] at built
  rw [length] at fills fetches
  exact ⟨unit, u, last, row, factory, mappers, read, passed, found, built, fills, fetches⟩

end Validator

end SqlUnits
