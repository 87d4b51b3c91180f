import SqlUnits.Proofs.Artifact.Fields
import SqlUnits.Proofs.Check.Binding
import SqlUnits.Proofs.Query.Numbering
import SqlUnits.Proofs.Unit.Scan
/-!
Code can be generated for every unit that passed. Its statements are complete, the rows that they
populate have their fields once the run is over, and every placeholder is bound to one parameter.
-/

namespace SqlUnits

/-! Rows that statements populate. -/

/-- A shape that tells the types of all fields. -/
def RowShape.IsTyped (shape : RowShape) : Prop :=
  shape.isMeta = true ∨ ∀ column ∈ shape.columns, ∃ type, column.valueType = some type

theorem RowShape.Covers.isTyped {shape : RowShape} {isMeta : Bool} {columns : List ColumnInfo}
    (covers : shape.Covers isMeta columns)
    (typed : isMeta = true ∨ ∀ column ∈ columns, ∃ type, column.valueType = some type) :
    shape.IsTyped := by
  obtain ⟨mode, below⟩ := covers
  apply typed.imp
  · intro isMeta
    rw [mode, isMeta]
  · intro typed column member
    obtain ⟨seen, inside, below⟩ := (forall₂_mem below).2 column member
    obtain ⟨type, known⟩ := typed seen inside
    obtain ⟨wide, known, _⟩ := below type known
    exact ⟨wide, known⟩

/-- A declared row whose fields are written, or told by its shape. -/
def SourceUnit.HasFields (unit : SourceUnit) (shapes : ShapeRegistry) (name : String) : Prop :=
  ∃ row, unit.row? name = some row ∧ (row.fields = none →
    ∃ shape, shapes.get? (unit.qualified name) = some shape ∧ shape.IsTyped)

theorem SourceUnit.HasFields.grows {unit : SourceUnit} {shapes others : ShapeRegistry}
    {name : String} (known : unit.HasFields shapes name) (grows : shapes.Grows others) :
    unit.HasFields others name := by
  obtain ⟨row, declared, known⟩ := known
  refine ⟨row, declared, ?_⟩
  intro bare
  obtain ⟨shape, recorded, typed⟩ := known bare
  obtain ⟨wide, recorded, covers⟩ := grows.below _ shape recorded
  exact ⟨wide, recorded, covers.isTyped typed⟩

/-- The first answer to a question is the first one to a stricter question that it meets. -/
theorem find?_of_imp {p q : α → Bool} {as : List α} {a : α}
    (found : as.find? p = some a) (here : q a = true) (implies : ∀ x, q x = true → p x = true) :
    as.find? q = some a := by
  obtain ⟨known, before, after, rfl, none⟩ := List.find?_eq_some_iff_append.1 found
  refine List.find?_eq_some_iff_append.2 ⟨here, before, after, rfl, ?_⟩
  intro x member
  have none := none x member
  cases other : q x with
  | false => rfl
  | true => simp [implies x other] at none

theorem TypedRow.ofDecl?_name {row : RowDecl} {shape : Option RowShape} {typed : TypedRow}
    (made : ofDecl? row shape = some typed) : typed.name = row.name.name := by
  unfold ofDecl? at made
  split at made
  · cases made
    rfl
  · obtain ⟨_, _, rfl⟩ := Option.map_eq_some_iff.1 made
    rfl
  · cases made

/-- The row of a declaration is the one that its name stands for in the artifact. -/
theorem SourceUnit.row?_build {unit : SourceUnit} {name : String} {row : RowDecl}
    {shapes : ShapeRegistry} {typed : TypedRow} (declared : unit.row? name = some row)
    (made : TypedRow.ofDecl? row (shapes.get? (unit.qualified name)) = some typed)
    (methods : List TypedMethod) :
    (TypedUnit.build unit methods shapes).row? name = some typed := by
  have same : row.name.name = name := by simpa using List.find?_some declared
  unfold TypedUnit.row? TypedUnit.build
  rw [List.find?_filterMap]
  have first : unit.rows.find? (fun decl =>
      (TypedRow.ofDecl? decl (shapes.get? (unit.qualified decl.name.name))).any
        (·.name == name)) = some row := by
    apply find?_of_imp declared
    · rw [same, made, Option.any_some, TypedRow.ofDecl?_name made, same, beq_self_eq_true]
    · intro decl isNamed
      obtain ⟨typed, made, isNamed⟩ := (Option.any_eq_true _ _).1 isNamed
      rw [← TypedRow.ofDecl?_name made]
      exact isNamed
  rw [first, Option.bind_some, same, made]

/-- A row with fields is in the artifact. -/
theorem SourceUnit.HasFields.row? {unit : SourceUnit} {shapes : ShapeRegistry} {name : String}
    (known : unit.HasFields shapes name) (methods : List TypedMethod) :
    ∃ row, (TypedUnit.build unit methods shapes).row? name = some row := by
  obtain ⟨row, declared, known⟩ := known
  have made : ∃ typed, TypedRow.ofDecl? row (shapes.get? (unit.qualified name)) = some typed := by
    cases fields : row.fields with
    | some list => exact ⟨_, by simp only [TypedRow.ofDecl?, fields]; rfl⟩
    | none =>
        obtain ⟨shape, recorded, typed⟩ := known fields
        obtain ⟨list, read⟩ := fieldsFrom_isSome typed [] 0
        have read : discoveredFields shape = some list := read
        exact ⟨_, by simp only [TypedRow.ofDecl?, fields, recorded, read, Option.map_some]; rfl⟩
  obtain ⟨typed, made⟩ := made
  exact ⟨typed, SourceUnit.row?_build declared made methods⟩

/-! Statements that passed. -/

/-- A statement that is complete for the code of its keyword. -/
structure TypedStatement.Complete (unit : TypedUnit) (c : Convention) (s : TypedStatement) :
    Prop where
  keyword : Convention.ofKeyword? s.convention = some c
  row : c.isRow = true → ∃ name row, s.row = some name ∧ unit.row? name = some row
  value : c.isSingleColumn = true → ∃ type, s.valueType = some type
  text : c ≠ .proc → c ≠ .nextval → ∃ sql, s.sql = some sql

/-- The arguments of a statement are parameters of its method, one for every placeholder. -/
structure TypedStatement.Bound (table : ParamTable) (method : TypedMethod) (s : TypedStatement) :
    Prop where
  params : ∀ a ∈ s.args, ∃ p ∈ method.params, p.name = a ∧ table.get? a = some p.type
  count : ∀ sql, s.sql = some sql →
    ∃ q, Query.parse sql = .ok q ∧ s.args.length = q.paramCount

/-- An artifact that code can be generated from. -/
def TypedUnit.Ready (table : ParamTable) (unit : TypedUnit) : Prop :=
  ∀ method ∈ unit.methods, ∀ s ∈ method.statements,
    (∃ c, s.Complete unit c) ∧ s.Bound table method

theorem Convention.ofKeyword?_keyword (c : Convention) : ofKeyword? c.keyword = some c := by
  cases c <;> decide

namespace Validator

variable {v : Validator} {site : Site} {s t : CheckState} {checked : Checked}

theorem checkRow_hasFields {typed : TypedStatement} {row : Ident} {columns : List ColumnInfo}
    (runs : Runs (v.checkRow site typed row columns) s checked t)
    (declared : ∃ decl, site.unit.row? row.name = some decl) :
    checked.statement = { typed with row := some row.name } ∧
      site.unit.HasFields t.shapes row.name := by
  obtain ⟨fits, shape, shapes, recorded, rfl, rfl⟩ := runs_checkRow.1 runs
  obtain ⟨decl, known⟩ := declared
  refine ⟨rfl, decl, known, ?_⟩
  intro bare
  obtain ⟨get, covers, _, _⟩ := ShapeRegistry.record_eq_ok recorded
  refine ⟨shape, by rw [get, if_pos rfl], covers.isTyped ?_⟩
  rw [known, Option.bind_some, bare] at fits
  cases mode : site.statement.convention == .metadata with
  | true => exact .inl rfl
  | false =>
      right
      intro column member
      simp only [mode, checkFields, Bool.false_eq_true, if_false] at fits
      split at fits
      · cases fits
      · rename_i typed
        have some := List.find?_eq_none.1 typed column member
        exact Option.ne_none_iff_exists'.1 (by simpa using some)

/-- What a query adds to a statement: the row that it populates, or the type of its value. -/
theorem checkQuery_complete {typed : TypedStatement} {sql : String} {args : Arguments}
    {shapes : ShapeRegistry} (runs : Runs (v.checkQuery site typed sql args) s checked t)
    (grows : t.shapes.Grows shapes) (targeted : Scanner.Targeted site.statement)
    (declared : ∀ name, site.statement.target = .row name →
      ∃ row, site.unit.row? name.name = some row) (methods : List TypedMethod) :
    checked.statement.convention = typed.convention ∧ checked.statement.sql = typed.sql ∧
      checked.statement.args = typed.args ∧
      (site.statement.convention.isRow = true → ∃ name row, checked.statement.row = some name ∧
        (TypedUnit.build site.unit methods shapes).row? name = some row) ∧
      (site.statement.convention.isSingleColumn = true →
        ∃ type, checked.statement.valueType = some type) := by
  obtain ⟨columns, u, _, rest⟩ := runs_checkQuery.1 runs
  have noValue (other : ∀ type span, site.statement.target ≠ .value type span) :
      site.statement.convention.isSingleColumn = true → False := by
    intro single
    obtain ⟨type, span, target⟩ := targeted.value single
    exact other type span target
  have noRow (other : ∀ name, site.statement.target ≠ .row name) :
      site.statement.convention.isRow = true → False := by
    intro rows
    obtain ⟨name, target⟩ := targeted.row rows
    exact other name target
  cases target : site.statement.target with
  | row name =>
      rw [target] at rest noValue
      obtain ⟨same, known⟩ := checkRow_hasFields rest (declared name target)
      obtain ⟨row, present⟩ := (known.grows grows).row? methods
      rw [same]
      exact ⟨rfl, rfl, rfl, fun _ => ⟨name.name, row, rfl, present⟩,
        fun single => (noValue nofun single).elim⟩
  | value type span =>
      rw [target] at rest noRow
      obtain ⟨rest, rfl⟩ := rest
      unfold valueChecked at rest
      cases found : DeclaredValue.check v.registry site.statement.convention site.owner type
          columns with
      | error e => simp [found, bind, Except.bind] at rest
      | ok kind =>
          simp only [found, bind, Except.bind, pure, Except.pure, Except.ok.injEq] at rest
          subst rest
          exact ⟨rfl, rfl, rfl, fun rows => (noRow nofun rows).elim, fun _ => ⟨kind, rfl⟩⟩
  | none =>
      rw [target] at rest noRow noValue
      obtain ⟨rfl, rfl⟩ := rest
      exact ⟨rfl, rfl, rfl, fun rows => (noRow nofun rows).elim,
        fun single => (noValue nofun single).elim⟩

/-- What a statement has once it has passed. -/
theorem statement_complete {params : ParamTable} {shapes : ShapeRegistry}
    (runs : Runs (v.statement params site) s checked t) (grows : t.shapes.Grows shapes)
    (targeted : Scanner.Targeted site.statement)
    (declared : ∀ name, site.statement.target = .row name →
      ∃ row, site.unit.row? name.name = some row) (methods : List TypedMethod) :
    checked.statement.Complete (TypedUnit.build site.unit methods shapes)
        site.statement.convention ∧
      (∀ a ∈ checked.statement.args, ∃ p ∈ site.method.params, p.name.name = a) ∧
      ∀ sql, checked.statement.sql = some sql →
        ∃ q, Query.parse sql = .ok q ∧ checked.statement.args.length = q.paramCount := by
  have keyword := Convention.ofKeyword?_keyword site.statement.convention
  by_cases proc : site.statement.convention = .proc
  · obtain ⟨name, args, types, _, resolved, _, rest⟩ := (runs_statement_proc proc).1 runs
    obtain ⟨_, _, _, rfl⟩ := runs_checkObject.1 rest
    exact ⟨⟨keyword, by simp [proc, Convention.isRow], by simp [proc, Convention.isSingleColumn],
      fun other => absurd proc other⟩, MethodDecl.argumentNames_mem resolved,
      by simp [typedStart]⟩
  by_cases nextval : site.statement.convention = .nextval
  · obtain ⟨name, _, rest⟩ := (runs_statement_nextval nextval).1 runs
    obtain ⟨_, _, _, rfl⟩ := runs_checkObject.1 rest
    exact ⟨⟨keyword, by simp [nextval, Convention.isRow],
      by simp [nextval, Convention.isSingleColumn], fun _ other => absurd nextval other⟩,
      by simp, by simp [typedStart]⟩
  obtain ⟨text, q, args, _, parsed, bound, rest⟩ := (runs_statement_sql proc nextval).1 runs
  obtain ⟨length, params⟩ := Arguments.ofStatement_eq_ok bound
  obtain ⟨again, parsed, _, count⟩ := Query.parse_normal parsed
  have placeholders : ∀ sql, some q.sql = some sql →
      ∃ q, Query.parse sql = .ok q ∧ args.names.length = q.paramCount := by
    intro sql same
    cases same
    exact ⟨again, parsed, by rw [count, length]⟩
  split at rest
  · rename_i mutation
    obtain ⟨_, _, _, _, _, _, _, rfl⟩ := runs_checkMutation.1 rest
    refine ⟨⟨keyword, ?_, ?_, fun _ _ => ⟨q.sql, rfl⟩⟩, params, placeholders⟩
    all_goals
      intro kind
      cases c : site.statement.convention <;>
        simp_all [Convention.isMutation, Convention.isRow, Convention.isSingleColumn]
  · obtain ⟨convention, sql, names, row, value⟩ :=
      checkQuery_complete rest grows targeted declared methods
    refine ⟨⟨by rw [convention]; exact keyword, row, value, fun _ _ => ⟨q.sql, sql⟩⟩, ?_, ?_⟩
    · rw [names]
      exact params
    · rw [names, sql]
      exact placeholders

end Validator

/-- Once a unit has passed, its artifact is ready at every later time of the run. -/
theorem Validator.Passing.ready {v : Validator} {path text : String} {unit : SourceUnit}
    {u : ValidatedUnit} {run next last : RunRecord} {opened : Connection} {t : CheckState}
    (scanned : SourceUnit.scan path text = .ok unit) (passing : Passing v unit u run next opened t)
    (leads : next.Leads last) : (TypedUnit.build unit u.methods last.shapes).Ready u.params := by
  intro method member s inside
  obtain ⟨decl, known, typedAs, statement, here, before, checked, after, runs, rfl, grows⟩ :=
    passing.visited member inside
  rw [← passing.shapes] at grows
  obtain ⟨complete, params, count⟩ := statement_complete runs (grows.trans leads.grows)
    (SourceUnit.scan_targeted scanned decl known statement here)
    (fun name target => SourceUnit.scan_row? scanned known here target) u.methods
  refine ⟨⟨_, complete⟩, ?_, count⟩
  intro a among
  obtain ⟨p, declared, rfl⟩ := params a among
  exact typedAs.param declared

/-! The code. -/

namespace Code

/-- The expression that binds a parameter. -/
def boundParam (p : TypedParam) : String :=
  let value := if isCopy p.type then identifier p.name else identifier p.name ++ ".clone()"
  "Parameter::typed(" ++ value ++ ", " ++ typeExpr p.type ++ ")"

variable {unit : TypedUnit} {method : TypedMethod} {s : TypedStatement} {table : ParamTable}

theorem call_eq_ok {c : Convention} (complete : s.Complete unit c) :
    ∃ made, call unit method s = .ok made := by
  have row (rows : c.isRow = true) : ∃ name, rowName unit s = .ok name := by
    obtain ⟨name, row, named, present⟩ := complete.row rows
    exact ⟨row.name, by simp only [rowName, named, present]⟩
  have value (single : c.isSingleColumn = true) : ∃ type, valueTypeOf s = .ok type := by
    obtain ⟨type, known⟩ := complete.value single
    exact ⟨type, by simp only [valueTypeOf, known]⟩
  unfold call
  simp only [complete.keyword]
  cases c with
  | one | maybe | many | metadata =>
      obtain ⟨name, named⟩ := row rfl
      rw [named]
      exact ⟨_, rfl⟩
  | value | maybeValue | column =>
      obtain ⟨type, known⟩ := value rfl
      rw [known]
      exact ⟨_, rfl⟩
  | _ => exact ⟨_, rfl⟩

theorem boundArg_eq (types : ∀ p ∈ method.params, table.get? p.name = some p.type)
    {p : TypedParam} (member : p ∈ method.params) : boundArg method p.name = boundParam p := by
  have found : ∃ q, method.params.find? (·.name == p.name) = some q := by
    apply Option.isSome_iff_exists.1
    exact List.find?_isSome.2 ⟨p, member, by simp⟩
  obtain ⟨q, found⟩ := found
  have same : q.name = p.name := by simpa using List.find?_some found
  have type := types q (List.mem_of_find?_eq_some found)
  rw [same, types p member] at type
  unfold boundArg boundParam
  rw [found, Option.map_some, Option.getD_some, ← Option.some.inj type]

theorem exists_params {names : List String}
    (known : ∀ a ∈ names, ∃ p ∈ method.params, p.name = a) :
    ∃ ps : List TypedParam, ps.map (·.name) = names ∧ ∀ p ∈ ps, p ∈ method.params := by
  induction names with
  | nil => exact ⟨[], rfl, nofun⟩
  | cons a names ih =>
      obtain ⟨p, member, named⟩ := known a (.head names)
      obtain ⟨ps, rest, inside⟩ := ih fun b among => known b (.tail a among)
      exact ⟨p :: ps, by rw [List.map_cons, named, rest], List.forall_mem_cons.2 ⟨member, inside⟩⟩

/-- The generated query has one parameter, of the type of the unit, for every placeholder. -/
theorem queryExpr_eq (types : ∀ p ∈ method.params, table.get? p.name = some p.type)
    (bound : s.Bound table method) {sql : String} (text : s.sql = some sql) :
    ∃ q, ∃ ps : List TypedParam, Query.parse sql = .ok q ∧ ps.length = q.paramCount ∧
      ps.map (·.name) = s.args ∧ (∀ p ∈ ps, p ∈ method.params) ∧
      queryExpr method s = "&QueryPiece::new(" ++ Text.quoted sql ++ ")" ++
        String.join (ps.map fun p => ".bind(" ++ boundParam p ++ ")") := by
  obtain ⟨q, parsed, count⟩ := bound.count sql text
  obtain ⟨ps, names, inside⟩ := exists_params fun a among => by
    obtain ⟨p, member, named, _⟩ := bound.params a among
    exact ⟨p, member, named⟩
  refine ⟨q, ps, parsed, by rw [← count, ← names, List.length_map], names, inside, ?_⟩
  unfold queryExpr
  rw [text, Option.getD_some, ← names, List.map_map]
  congr 2
  apply List.map_congr_left
  intro p among
  rw [Function.comp_apply, boundArg_eq types (inside p among)]

theorem unitFiles_eq_ok (ready : unit.Ready table) (rowNamespace : String) :
    ∃ files, unitFiles rowNamespace unit = .ok files := by
  have calls : ∀ method ∈ unit.methods,
      ∃ made, (do pure (MethodCalls.mk method (← method.statements.mapM (call unit method))) :
        Except CodeError MethodCalls) = .ok made := by
    intro method member
    obtain ⟨made, mapped⟩ := exists_mapM fun s inside => by
      obtain ⟨⟨c, complete⟩, _⟩ := ready method member s inside
      exact @call_eq_ok unit method s c complete
    exact ⟨⟨method, made⟩, by rw [mapped]; rfl⟩
  obtain ⟨made, mapped⟩ := exists_mapM calls
  unfold unitFiles accessModule
  rw [mapped]
  exact ⟨_, rfl⟩

/-- Code is generated for all units that are ready. -/
theorem generate_eq_ok {units : List TypedUnit} (ready : ∀ unit ∈ units, ∃ table, unit.Ready table)
    (rowNamespace : String) : ∃ files, generate units rowNamespace = .ok files := by
  obtain ⟨files, mapped⟩ := exists_mapM fun unit member => by
    obtain ⟨table, ready⟩ := ready unit member
    exact unitFiles_eq_ok ready rowNamespace
  unfold generate
  rw [mapped]
  exact ⟨_, rfl⟩

end Code

namespace Validator

/-- Whatever else a run checks, the artifacts of the units that passed are ready in the end: code
is generated for them, and every query in it binds one parameter for each of its placeholders. -/
theorem validate_generates {v : Validator} {units : List (SourceUnit × ValidatedUnit)}
    {last : RunRecord} (scanned : ∀ p ∈ units, ∃ path text, SourceUnit.scan path text = .ok p.1)
    (passed : ∀ p ∈ units, ∃ source run next,
      v.validate source p.1 run = (.ok p.2, next) ∧ next.Leads last) (rowNamespace : String) :
    (∀ p ∈ units, Inference.ofUnit p.1 v.registry = .ok p.2.params ∧
      (TypedUnit.build p.1 p.2.methods last.shapes).Ready p.2.params ∧
      ∀ method ∈ p.2.methods, ∀ s ∈ method.statements, ∀ sql, s.sql = some sql →
        ∃ q, ∃ ps : List TypedParam, Query.parse sql = .ok q ∧ ps.length = q.paramCount ∧
          ps.map (·.name) = s.args ∧
          (∀ b ∈ ps, b ∈ method.params ∧ p.2.params.get? b.name = some b.type) ∧
          Code.queryExpr method s = "&QueryPiece::new(" ++ Text.quoted sql ++ ")" ++
            String.join (ps.map fun b => ".bind(" ++ Code.boundParam b ++ ")")) ∧
      ∃ files, Code.generate
        (units.map fun p => TypedUnit.build p.1 p.2.methods last.shapes) rowNamespace =
          .ok files := by
  have ready : ∀ p ∈ units, Inference.ofUnit p.1 v.registry = .ok p.2.params ∧
      (TypedUnit.build p.1 p.2.methods last.shapes).Ready p.2.params ∧
      ∀ method ∈ p.2.methods, ∀ b ∈ method.params, p.2.params.get? b.name = some b.type := by
    intro p member
    obtain ⟨path, text, read⟩ := scanned p member
    obtain ⟨source, run, next, passed, leads⟩ := passed p member
    obtain ⟨opened, stored, t, _, passing⟩ := validate_passing passed
    refine ⟨passing.inferred, passing.ready read leads, ?_⟩
    intro method inside
    obtain ⟨_, _, typedAs⟩ := (forall₂_mem passing.typed).2 method inside
    exact typedAs.typeOf
  constructor
  · intro p member
    obtain ⟨inferred, isReady, types⟩ := ready p member
    refine ⟨inferred, isReady, ?_⟩
    intro method inside s among sql text
    obtain ⟨_, bound⟩ := isReady method inside s among
    obtain ⟨q, ps, parsed, count, names, params, written⟩ :=
      Code.queryExpr_eq (types method inside) bound text
    refine ⟨q, ps, parsed, count, names, ?_, written⟩
    intro b chosen
    exact ⟨params b chosen, types method inside b (params b chosen)⟩
  · apply Code.generate_eq_ok
    intro typed made
    obtain ⟨p, member, rfl⟩ := List.mem_map.1 made
    exact ⟨p.2.params, (ready p member).2.1⟩

theorem validate_generates_discovered :
    let v : Validator := { registry := .builtins, checker := .generic }
    let text :=
      "unit A row R fn m(x=1)\x7bone R\x7bSELECT 1 AS n\x7dvalue _\x7bSELECT 1\x7dproc p(x)\x7d"
    ∃ unit u last, SourceUnit.scan "a" text = .ok unit ∧
      v.validate (.apart (.ok {})) unit {} = (.ok u, last) ∧
      u.methods.map (·.statements.map (·.args)) = [[[], [], ["x"]]] ∧
      ∃ files, Code.generate [TypedUnit.build unit u.methods last.shapes] "rows" = .ok files := by
  intro v text
  have shown : ((SourceUnit.scan "a" text).toOption.bind fun unit =>
      (v.validate (.apart (.ok {})) unit {}).1.toOption.map fun u =>
        u.methods.map (·.statements.map (·.args))) = some [[[], [], ["x"]]] := by
    decide +kernel
  obtain ⟨unit, read, shown⟩ := Option.bind_eq_some_iff.1 shown
  obtain ⟨u, passed, args⟩ := Option.map_eq_some_iff.1 shown
  have read : SourceUnit.scan "a" text = .ok unit := eq_ok_of_toOption read
  obtain ⟨last, passed⟩ : ∃ last, v.validate (.apart (.ok {})) unit {} = (.ok u, last) :=
    ⟨_, Prod.ext (eq_ok_of_toOption passed) rfl⟩
  obtain ⟨_, generated⟩ := @validate_generates v [(unit, u)] last
    (List.forall_mem_singleton.2 ⟨"a", text, read⟩)
    (List.forall_mem_singleton.2 ⟨_, _, last, passed, .done⟩) "rows"
  exact ⟨unit, u, last, read, passed, args, generated⟩

end Validator

end SqlUnits
