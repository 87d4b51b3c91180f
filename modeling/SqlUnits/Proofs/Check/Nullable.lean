import SqlUnits.Proofs.Check.Fetching
/-!
The nullability of declared fields. A field is given that of the column at its own place among the
fields. Its values begin behind the columns of the fields before it, so this is the column that it
is read from as long as each of those takes one column.
-/

namespace SqlUnits

/-- The nullability of the column at a place, unknown where there is none. -/
def RowShape.nullableAt (shape : RowShape) (place : Nat) : Nullability :=
  (shape.columns[place]?.map (·.nullable)).getD .unknown

namespace Mapper

theorem start_cons_succ (mapper : Mapper) (mappers : List Mapper) (place : Nat) :
    start (mapper :: mappers) (place + 1) = mapper.columns + start mappers place :=
  rfl

/-- The columns that a mapper takes are among those of all mappers. -/
theorem start_add_le {mappers : List Mapper} {mapper : Mapper} {place : Nat}
    (here : mappers[place]? = some mapper) :
    start mappers place + mapper.columns ≤ total (mappers.map (·.columns)) := by
  induction mappers generalizing place with
  | nil => cases here
  | cons first rest ih =>
      rw [List.map_cons, total_cons]
      cases place with
      | zero =>
          obtain rfl : first = mapper := Option.some.inj here
          have none_ : start (first :: rest) 0 = 0 := rfl
          omega
      | succ place =>
          have behind : start rest place + mapper.columns ≤ total (rest.map (·.columns)) := ih here
          rw [start_cons_succ]
          omega

/-- Behind mappers of one column each, columns are counted as mappers are. -/
theorem start_eq {mappers : List Mapper} {place : Nat} (inside : place ≤ mappers.length)
    (single : ∀ m ∈ mappers.take place, m.columns = 1) : start mappers place = place := by
  induction place generalizing mappers with
  | zero => rfl
  | succ place ih =>
      cases mappers with
      | nil => cases inside
      | cons first rest =>
          obtain ⟨one, others⟩ := List.forall_mem_cons.1 single
          rw [start_cons_succ, one, ih (Nat.le_of_succ_le_succ inside) others, Nat.add_comm]

end Mapper

theorem TypedRow.ofDeclared_nullable {name : String} {fields : List FieldDecl} {shape : RowShape}
    {place : Nat} {field : TypedField}
    (here : (ofDeclared name fields (some shape)).fields[place]? = some field) :
    field.nullable = shape.nullableAt place := by
  unfold ofDeclared at here
  dsimp only at here
  rw [List.getElem?_map] at here
  obtain ⟨_, inside, rfl⟩ := Option.map_eq_some_iff.1 here
  rw [List.getElem?_zipIdx, Nat.zero_add] at inside
  obtain ⟨decl, _, rfl⟩ := Option.map_eq_some_iff.1 inside
  rfl

namespace Scanner

/-- The rows of a unit have different names. -/
theorem ItemsAt.rows_apart {lines : LineIndex} {c d : Cursor} {draft last : Draft}
    (at_ : ItemsAt lines draft c last d)
    (before : draft.rows.Pairwise fun r r' => r.name.name ≠ r'.name.name) :
    last.rows.Pairwise fun r r' => r.name.name ≠ r'.name.name := by
  induction at_ with
  | done => exact before
  | more first _ ih =>
      refine ih ?_
      cases first with
      | unit | method => exact before
      | row _ _ _ new =>
          refine List.pairwise_append.2 ⟨before, List.pairwise_singleton _ _, fun r member r' last =>
            ?_⟩
          obtain rfl := List.mem_singleton.1 last
          exact fun same => List.any_eq_false.1 new r member (beq_iff_eq.2 same)

/-- Only a keyword that reads rows delivers into one. -/
theorem StatementAt.readsRow {lines : LineIndex} {c d : Cursor} {s : StatementDecl}
    (at_ : StatementAt lines c s d) {name : Ident} (target : s.target = .row name) :
    s.convention.isRow = true := by
  cases at_ with
  | proc | nextval => cases target
  | sql _ _ _ _ there _ _ =>
      obtain rfl : _ = Target.row name := target
      cases there with
      | row rows _ => exact rows

end Scanner

namespace SourceUnit

variable {path source : String} {unit : SourceUnit}

/-- A declared row is the one that its name stands for. -/
theorem scan_row?_of_mem (read : scan path source = .ok unit) {decl : RowDecl}
    (member : decl ∈ unit.rows) : unit.row? decl.name.name = some decl := by
  obtain ⟨_, _, _, at_, _, _, rfl⟩ := scan_eq_ok.1 read
  have apart := at_.rows_apart .nil
  obtain ⟨before, after, whole⟩ := List.append_of_mem member
  refine List.find?_eq_some_iff_append.2 ⟨beq_self_eq_true _, before, after, whole, ?_⟩
  intro r inside
  dsimp only at whole
  rw [whole] at apart
  have other := (List.pairwise_append.1 apart).2.2 r inside decl List.mem_cons_self
  simpa using other

theorem scan_readsRow (read : scan path source = .ok unit) {m : MethodDecl}
    (member : m ∈ unit.methods) {s : StatementDecl} (inside : s ∈ m.statements) {name : Ident}
    (target : s.target = .row name) : s.convention.isRow = true := by
  obtain ⟨_, _, _, at_, _, _, rfl⟩ := scan_eq_ok.1 read
  obtain ⟨_, _, here⟩ := at_.each (fun _ member => absurd member List.not_mem_nil) m member s inside
  exact here.readsRow target

end SourceUnit

namespace Validator

variable {v : Validator} {unit : SourceUnit} {u : ValidatedUnit} {site : Site}

/-- Each statement of a unit that passed has been checked. -/
theorem Passing.checked {run next : RunRecord} {opened : Connection} {t : CheckState}
    (passing : Passing v unit u run next opened t) {method : MethodDecl}
    (member : method ∈ unit.methods) {s : StatementDecl} (inside : s ∈ method.statements) :
    ∃ before checked after, Runs (v.statement u.params ⟨unit, method, s⟩) before checked after ∧
      after.shapes.Grows next.shapes := by
  obtain ⟨_, _, _, statements⟩ := passing.each member
  obtain ⟨_, _, before, checked, after, runs, _, grows⟩ := statements s inside
  exact ⟨before, checked, after, runs, passing.shapes ▸ grows⟩

/-- Declared fields that a query populates take the columns of the shape that is recorded. -/
theorem checkRow_divides (rowsChecked : v.checkRowTypes = true) {typed : TypedStatement}
    {row : Ident} {columns : List ColumnInfo} {s t : CheckState} {checked : Checked}
    (runs : Runs (v.checkRow site typed row columns) s checked t) {shapes : ShapeRegistry}
    (grows : t.shapes.Grows shapes) {decl : RowDecl}
    (known : site.unit.row? row.name = some decl) {fields : List FieldDecl}
    (declared : decl.fields = some fields) {shape : RowShape}
    (recorded : shapes.get? (site.unit.qualified row.name) = some shape)
    (data : shape.isMeta = false) (name : String) :
    ∃ mappers, List.Forall₂ (TypedField.ReadBy v.registry)
        (TypedRow.ofDeclared name fields (some shape)).fields mappers ∧
      total (mappers.map (·.columns)) = shape.columns.length := by
  obtain ⟨fits, _, _, observed, rfl, rfl⟩ := runs_checkRow.1 runs
  rw [known, Option.bind_some, declared] at fits
  simp only [checkFields, rowsChecked, if_true] at fits
  obtain ⟨get, covers, _, _⟩ := ShapeRegistry.record_eq_ok observed
  obtain ⟨last, found, wide⟩ := grows.below _ _ ((get _).trans (if_pos rfl))
  obtain rfl : shape = last := Option.some.inj (recorded.symm.trans found)
  obtain ⟨mode, below⟩ := covers.trans wide
  rw [data] at mode
  rw [← mode] at fits
  cases DeclaredRow.check_fits fits name (some shape) with
  | data reads widths => exact ⟨_, reads, widths.trans below.length_eq⟩

/-- Where a declared field has its nullability from. Whatever else the run goes on to check, the
fields of a row that the unit populates divide the columns of its shape. A field has the nullability
of the column that it begins with exactly if that is the one of the column at its own place, as it
is wherever all fields before it take one column each. -/
theorem validate_nullable {path text : String} {source : ConnectionSource}
    {run next last : RunRecord} (rowsChecked : v.checkRowTypes = true)
    (scanned : SourceUnit.scan path text = .ok unit)
    (passed : v.validate source unit run = (.ok u, next)) (leads : next.Leads last)
    {decl : RowDecl} (member : decl ∈ unit.rows) {fields : List FieldDecl}
    (declared : decl.fields = some fields) {shape : RowShape}
    (recorded : last.shapes.get? (unit.qualified decl.name.name) = some shape)
    (data : shape.isMeta = false) :
    ∃ made ∈ (TypedUnit.build unit u.methods last.shapes).rows, made.name = decl.name.name ∧
      made.fields.map (fun f => (f.name, f.type)) = fields.map (fun f => (f.name, f.type)) ∧
      ((∃ site ∈ unit.sites, ∃ name, site.statement.target = .row name ∧
          name.name = decl.name.name) →
        ∃ mappers, List.Forall₂ (TypedField.ReadBy v.registry) made.fields mappers ∧
          ∀ place mapper, mappers[place]? = some mapper →
            Mapper.start mappers place + mapper.columns ≤ shape.columns.length) ∧
      ∀ mappers, List.Forall₂ (TypedField.ReadBy v.registry) made.fields mappers →
        ∀ place field, made.fields[place]? = some field →
          (field.nullable = shape.nullableAt (Mapper.start mappers place) ↔
            shape.nullableAt place = shape.nullableAt (Mapper.start mappers place)) ∧
          ((∀ m ∈ mappers.take place, m.columns = 1) →
            field.nullable = shape.nullableAt (Mapper.start mappers place)) := by
  have named := SourceUnit.scan_row?_of_mem scanned member
  refine ⟨.ofDeclared decl.name.name fields (some shape), ?_, rfl, ?_, ?_, ?_⟩
  · refine List.mem_filterMap.2 ⟨decl, member, ?_⟩
    rw [recorded]
    simp only [TypedRow.ofDecl?, declared]
  · have pairs : (fun p : FieldDecl × Nat => (p.1.name, p.1.type)) =
        (fun f : FieldDecl => (f.name, f.type)) ∘ Prod.fst := rfl
    show (fields.zipIdx.map _).map _ = _
    rw [List.map_map]
    change fields.zipIdx.map (fun p : FieldDecl × Nat => (p.1.name, p.1.type)) = _
    rw [pairs, ← List.map_map, List.zipIdx_map_fst]
  · rintro ⟨site, among, row, target, same⟩
    obtain ⟨_, _, _, _, passing⟩ := validate_passing passed
    obtain ⟨method, known, among⟩ := List.mem_flatMap.1 among
    obtain ⟨statement, inside, rfl⟩ := List.mem_map.1 among
    obtain ⟨before, checked, after, runs, grows⟩ := passing.checked known inside
    obtain ⟨columns, _, typed, _, checks⟩ :=
      statement_populates runs target (SourceUnit.scan_readsRow scanned known inside target)
    rw [← same] at named recorded
    obtain ⟨mappers, reads, widths⟩ := checkRow_divides rowsChecked checks
      (grows.trans leads.grows) named declared recorded data decl.name.name
    exact ⟨mappers, reads, fun place mapper here => widths ▸ Mapper.start_add_le here⟩
  · intro mappers reads place field here
    have own := TypedRow.ofDeclared_nullable here
    rw [own]
    refine ⟨Iff.rfl, fun single => ?_⟩
    obtain ⟨low, _⟩ := List.getElem?_eq_some_iff.1 here
    rw [Mapper.start_eq (reads.length_eq ▸ low.le) single]

/-- A registry with a mapper that takes two columns. -/
def pairing : Registry :=
  Registry.builtins.register (.plain (.custom "pair") 2 (.composite []))

/-- A database with a table whose last column is nullable. -/
def lastNullable : Connection :=
  (({} : Connection).executeBatch
    "CREATE TABLE t (a INTEGER NOT NULL, b INTEGER NOT NULL, c INTEGER)").2

theorem validate_nullable_pair_last :
    let v : Validator := { registry := pairing, checker := .generic }
    let text := "unit U row P(n: long, x: pair) fn m()\x7bmany P\x7bSELECT c, a, b FROM t\x7d\x7d"
    ∃ unit u last made shape, SourceUnit.scan "u" text = .ok unit ∧
      v.validate (.apart (.ok lastNullable)) unit {} = (.ok u, last) ∧
      made ∈ (TypedUnit.build unit u.methods last.shapes).rows ∧
      last.shapes.get? "U::P" = some shape ∧
      ∃ mappers, List.Forall₂ (TypedField.ReadBy v.registry) made.fields mappers ∧
        ∀ place field, made.fields[place]? = some field →
          (∀ m ∈ mappers.take place, m.columns = 1) →
            field.nullable = shape.nullableAt (Mapper.start mappers place) := by
  intro v text
  have shown : ((SourceUnit.scan "u" text).toOption.bind fun unit =>
      (v.validate (.apart (.ok lastNullable)) unit {}).1.toOption.bind fun u =>
        ((v.validate (.apart (.ok lastNullable)) unit {}).2.shapes.get? "U::P").bind fun shape =>
          unit.rows.head?.bind fun decl => unit.sites.head?.map fun site =>
            (decl.fields.isSome, decl.name.name, unit.name.name, shape.isMeta,
              site.statement.target)) =
      some (true, "P", "U", false, .row ⟨"P", ⟨43, 44⟩⟩) := by
    decide +kernel
  obtain ⟨unit, read, shown⟩ := Option.bind_eq_some_iff.1 shown
  obtain ⟨u, passed, shown⟩ := Option.bind_eq_some_iff.1 shown
  obtain ⟨shape, recorded, shown⟩ := Option.bind_eq_some_iff.1 shown
  obtain ⟨decl, first, shown⟩ := Option.bind_eq_some_iff.1 shown
  obtain ⟨site, among, shown⟩ := Option.map_eq_some_iff.1 shown
  simp only [Prod.mk.injEq] at shown
  obtain ⟨some_, name, named, data, target⟩ := shown
  obtain ⟨fields, declared⟩ := Option.isSome_iff_exists.1 some_
  have row : "U::P" = unit.qualified decl.name.name := by
    rw [SourceUnit.qualified, name, named]
    rfl
  have read := eq_ok_of_toOption read
  have passed : v.validate (.apart (.ok lastNullable)) unit {} =
      (.ok u, (v.validate (.apart (.ok lastNullable)) unit {}).2) :=
    Prod.ext (eq_ok_of_toOption passed) rfl
  obtain ⟨made, member, _, _, divides, nullable⟩ := validate_nullable rfl read passed .done
    (List.mem_of_mem_head? first) declared (row ▸ recorded) data
  obtain ⟨mappers, reads, _⟩ := divides ⟨site, List.mem_of_mem_head? among, _, target, name.symm⟩
  exact ⟨unit, u, _, made, shape, read, passed, member, recorded, mappers, reads,
    fun place field here => (nullable mappers reads place field here).2⟩

/-- A field behind one of two columns is not given the nullability of its column. -/
theorem validate_nullable_pair_first :
    let v : Validator := { registry := pairing, checker := .generic }
    let text := "unit U row P(x: pair, n: long) fn m()\x7bmany P\x7bSELECT a, b, c FROM t\x7d\x7d"
    v.checkRowTypes = true ∧ ∃ unit u last shape made field mappers,
      SourceUnit.scan "u" text = .ok unit ∧
      v.validate (.apart (.ok lastNullable)) unit {} = (.ok u, last) ∧
      last.shapes.get? "U::P" = some shape ∧ shape.isMeta = false ∧
      (TypedUnit.build unit u.methods last.shapes).rows = [made] ∧ made.declared = true ∧
      List.Forall₂ (TypedField.ReadBy v.registry) made.fields mappers ∧
      made.fields[1]? = some field ∧ field.nullable = .no ∧
      shape.nullableAt (Mapper.start mappers 1) = .yes := by
  intro v text
  have shown : ((SourceUnit.scan "u" text).toOption.bind fun unit =>
      (v.validate (.apart (.ok lastNullable)) unit {}).1.toOption.bind fun u =>
        let last := (v.validate (.apart (.ok lastNullable)) unit {}).2
        (last.shapes.get? "U::P").map fun shape =>
          (shape.isMeta, shape.nullableAt 2,
            decide ((TypedUnit.build unit u.methods last.shapes).rows = [⟨"P", false, true,
              [⟨"x", .value (.custom "pair"), .no⟩, ⟨"n", .value .long, .no⟩]⟩]))) =
      some (false, .yes, true) := by
    decide +kernel
  obtain ⟨unit, read, shown⟩ := Option.bind_eq_some_iff.1 shown
  obtain ⟨u, passed, shown⟩ := Option.bind_eq_some_iff.1 shown
  obtain ⟨shape, recorded, shown⟩ := Option.map_eq_some_iff.1 shown
  simp only [Prod.mk.injEq, decide_eq_true_eq] at shown
  obtain ⟨data, nullable, rows⟩ := shown
  refine ⟨rfl, unit, u, _, shape, _, _,
    [.plain (.custom "pair") 2 (.composite []), .builtin .long], eq_ok_of_toOption read,
    Prod.ext (eq_ok_of_toOption passed) rfl, recorded, data, rows, rfl, ?_, rfl, rfl, nullable⟩
  exact .cons ⟨_, rfl, rfl⟩ (.cons ⟨_, rfl, rfl⟩ .nil)

end Validator

end SqlUnits
