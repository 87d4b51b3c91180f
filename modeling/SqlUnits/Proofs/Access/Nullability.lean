import SqlUnits.Proofs.Access.Naming
/-!
Columns that are discovered to be never missing. No row of the query has a missing value there,
whatever the tables contain.
-/

namespace SqlUnits

/-! What is discovered. -/

theorem describeColumns_getElem? {columns : List DeclaredColumn} {sample : Option (List Stored)}
    {i : Nat} {column : ColumnInfo} (found : (describeColumns columns sample)[i]? = some column) :
    column.nullable = .unknown ∧ ∃ c, columns[i]? = some c ∧ column.sqlType = c.declType := by
  unfold describeColumns at found
  rw [List.getElem?_map, List.getElem?_zipIdx, Option.map_map] at found
  obtain ⟨c, there, rfl⟩ := Option.map_eq_some_iff.1 found
  dsimp only [Function.comp_apply, describeColumn]
  exact ⟨rfl, c, there, rfl⟩

theorem ColumnOrigin.mark_no {column : ColumnInfo} {origin : Option ColumnOrigin}
    (unknown : column.nullable = .unknown) (never : (mark column origin).nullable = .no) :
    ∃ o, origin = some o ∧ o.outer = false ∧ o.fact.isNotNull = true ∧
      column.sqlType.isSome = true := by
  unfold mark at never
  split at never
  · rename_i decl o typed
    split at never
    · refine ⟨o, rfl, ?_⟩
      dsimp only at never
      split at never
      · cases never
      · rename_i some_
        rw [typed]
        simpa using some_
    · rw [unknown] at never
      cases never
  · rw [unknown] at never
    cases never

/-- A column that is never missing is traced to a column that forbids it. -/
theorem discoverNullability_no {db : Database} {sql : String} {columns : List DeclaredColumn}
    {sample : Option (List Stored)} {i : Nat} {column : ColumnInfo}
    (found : (discoverNullability db sql (describeColumns columns sample))[i]? = some column)
    (never : column.nullable = .no) :
    ∃ sources o c, SelectSources.ofText? sql = some sources ∧
      (ColumnOrigin.ofSources db sources).length = columns.length ∧
      (ColumnOrigin.ofSources db sources)[i]? = some (some o) ∧ o.outer = false ∧
      o.fact.isNotNull = true ∧ columns[i]? = some c ∧ c.declType.isSome = true := by
  have plain : ∀ {column}, (describeColumns columns sample)[i]? = some column →
      column.nullable ≠ .no := by
    intro column there
    rw [(describeColumns_getElem? there).1]
    nofun
  unfold discoverNullability at found
  split at found
  · exact absurd never (plain found)
  · rename_i sources traced
    dsimp only at found
    split at found
    · rename_i same
      rw [List.getElem?_map, Option.map_eq_some_iff] at found
      obtain ⟨⟨described, origin⟩, pair, rfl⟩ := found
      obtain ⟨first, second⟩ := List.getElem?_zip_eq_some.1 pair
      obtain ⟨unknown, c, there, type⟩ := describeColumns_getElem? first
      obtain ⟨o, rfl, inner, forbids, typed⟩ := ColumnOrigin.mark_no unknown never
      refine ⟨sources, o, c, traced, ?_, second, inner, forbids, there, type ▸ typed⟩
      rw [same, describeColumns, List.length_map, List.length_zipIdx]
    · exact absurd never (plain found)

/-! Queries whose columns are traced. -/

/-- The sources of the first core of a query. -/
def Sql.Select.sources : Sql.Select → List Sql.Joined
  | .mk _ (.select _ _ sources _ _ _) _ _ _ _ => sources
  | _ => []

/-- The query that a text is. -/
def Sql.Select.read? (sql : String) : Option Sql.Select :=
  match Sql.Parsed.ofText sql.toList with
  | .ok (some parsed) =>
      match parsed.statement with
      | .query q => some q
      | _ => none
  | _ => none

/-- A text that is a query, and of which no other query is traced. -/
structure Sql.Select.WrittenAs (q : Sql.Select) (sql : String) : Prop where
  read : read? sql = some q
  traced : ∀ sources ∈ SelectSources.ofText? sql, SelectSources.ofSelect? q = some sources

/-- A query whose columns are read where they are traced to. -/
structure Sql.Select.Traceable (q : Sql.Select) (db : Database) : Prop where
  /-- Behind a comma no join makes the tables before it optional. -/
  commas : ∀ j ∈ q.sources.dropWhile (!·.kind.comma), j.kind.right = false
  /-- Where sources share columns, all of them are tables. -/
  shares : (∀ j ∈ q.sources, j.isPlain = true) ∨
    ∀ sources ∈ SelectSources.ofSelect? q, ∀ t ∈ sources.tables, (db.table? t.name).isSome = true
  keys : ∀ sources ∈ SelectSources.ofSelect? q, ∀ t ∈ sources.tables,
    ∀ table ∈ db.table? t.name, table.NumbersKey

instance (q : Sql.Select) (db : Database) : Decidable (q.Traceable db) :=
  decidable_of_iff ((∀ j ∈ q.sources.dropWhile (!·.kind.comma), j.kind.right = false) ∧
    ((∀ j ∈ q.sources, j.isPlain = true) ∨
      ∀ sources ∈ SelectSources.ofSelect? q, ∀ t ∈ sources.tables,
        (db.table? t.name).isSome = true) ∧
    ∀ sources ∈ SelectSources.ofSelect? q, ∀ t ∈ sources.tables,
      ∀ table ∈ db.table? t.name, table.NumbersKey)
    ⟨fun ⟨commas, shares, keys⟩ => ⟨commas, shares, keys⟩,
      fun ⟨commas, shares, keys⟩ => ⟨commas, shares, keys⟩⟩

/-- The core of a query that is no compound, with its names resolved. -/
def Connection.core? (c : Connection) : Sql.Select → Option Query.CorePlan
  | .mk [] (.select distinct columns sources condition groups having) [] order _ _ =>
      (Statement.planned (Query.selectCore (Resolver.at_ (Resolver.maxDepth - 1))
        { c.scope with aggregates := .misused "misuse of aggregate function " }
        ⟨distinct, columns, sources, condition, groups, having⟩ order)).toOption
  | _ => none

/-- An aggregate over all rows has a row. -/
def Query.CorePlan.Populated (p : CorePlan) (env : Env) : Prop :=
  p.aggregated = true → p.groups = [] → (p.filtered env).items ≠ []

instance (p : Query.CorePlan) (env : Env) : Decidable (p.Populated env) :=
  inferInstanceAs (Decidable (_ = true → _ = [] → _ ≠ []))

theorem Statement.planned_eq_ok {p : Planner α} {a : α} :
    planned p = .ok a ↔ ∃ calls, Plans p [] a calls := by
  unfold planned Plans
  cases p.run [] with
  | error e => exact ⟨nofun, nofun⟩
  | ok pair =>
      constructor
      · rintro ⟨⟩
        exact ⟨pair.2, rfl⟩
      · rintro ⟨calls, ⟨⟩⟩
        rfl

namespace Connection

theorem resolve_query {c : Connection} {q : Sql.Select} {columns : List DeclaredColumn}
    {action : Action} (found : Statement.resolve c (.query q) = .ok (columns, action)) :
    ∃ plan calls,
      Plans (Query.resolve (Resolver.at_ (Resolver.maxDepth - 1)) c.scope q) [] plan calls ∧
      columns = Statement.ofColumns plan.columns ∧ action = .query plan := by
  unfold Statement.resolve at found
  cases planned : Statement.planned (Resolver.standard.query c.scope q) with
  | error e => simp [planned, bind, Except.bind] at found
  | ok plan =>
      simp only [planned, bind, Except.bind, pure, Except.pure] at found
      cases found
      obtain ⟨calls, plans⟩ := Statement.planned_eq_ok.1 planned
      exact ⟨plan, calls, plans, rfl, rfl⟩

/-- A statement that is a query, or one that says nothing of where its columns come from. -/
theorem prepare_query {c : Connection} {sql : String} {s : Statement} {q : Sql.Select}
    (written : q.WrittenAs sql) (prepared : c.prepare sql = .ok s) :
    (∃ plan calls,
      Plans (Query.resolve (Resolver.at_ (Resolver.maxDepth - 1)) c.scope q) [] plan calls ∧
      s.columns = Statement.ofColumns plan.columns ∧ s.action = .query plan) ∨
    ∀ column ∈ s.columns, column.declType = none := by
  obtain ⟨parsed, read, query⟩ : ∃ parsed, Sql.Parsed.ofText sql.toList = .ok (some parsed) ∧
      parsed.statement = .query q := by
    have read := written.read
    unfold Sql.Select.read? at read
    split at read
    · rename_i parsed text
      split at read
      · rename_i query
        cases read
        exact ⟨parsed, text, query⟩
      · cases read
    · cases read
  unfold prepare at prepared
  rw [read] at prepared
  have made := mapError_eq_ok.1 prepared
  unfold Statement.ofParsed at made
  rw [query] at made
  cases found : Statement.resolve c (.query q) with
  | error e => simp [found, bind, Except.bind] at made
  | ok pair =>
      obtain ⟨columns, action⟩ := pair
      simp only [found, bind, Except.bind, pure, Except.pure, Except.ok.injEq] at made
      subst made
      cases parsed.explain with
      | none =>
          obtain ⟨plan, calls, plans, rfl, rfl⟩ := resolve_query found
          exact .inl ⟨plan, calls, plans, rfl, rfl⟩
      | some how =>
          right
          intro column member
          cases how with
          | program =>
              obtain ⟨_, _, rfl⟩ := List.mem_map.1 member
              rfl
          | plan =>
              obtain ⟨_, _, rfl⟩ := List.mem_map.1 member
              rfl

end Connection

theorem SelectSources.ofSelect?_eq_some {q : Sql.Select} {sources : SelectSources}
    (traced : ofSelect? q = some sources) :
    ∃ (clauses : Query.Clauses) (order : List Sql.OrderTerm) (limit offset : Option Sql.Expr)
      (tables : List SourceTable), q = .mk [] clauses.core [] order limit offset ∧
      collect [] [] clauses.sources = some tables ∧
      sources = ⟨tables, clauses.columns.map itemOf⟩ := by
  unfold ofSelect? at traced
  split at traced
  · rename_i distinct columns joins condition groups having order limit offset
    obtain ⟨tables, collected, made⟩ := Option.bind_eq_some_iff.1 traced
    cases made
    exact ⟨⟨distinct, columns, joins, condition, groups, having⟩, order, limit, offset, tables,
      rfl, collected, rfl⟩
  · cases traced

/-- The origins of a core hold of its results, and its rows have those of its tables. -/
theorem Query.selectCore_holds {depth : Nat} {scope : Scope} {clauses : Clauses}
    {order : List Sql.OrderTerm} {limit offset : Option Sql.Expr} {p : CorePlan}
    {before after : List AggregateCall}
    (found : Plans (selectCore (Resolver.at_ depth) scope clauses order) before p after)
    (common : scope.common = []) (levels : scope.levels = []) {tables : List SourceTable}
    (collected : SelectSources.collect [] [] clauses.sources = some tables)
    (traceable : Sql.Select.Traceable (.mk [] clauses.core [] order limit offset) scope.database)
    {now : Database} (same : scope.database.SameSchema now) (admitted : now.Admitted) :
    ∃ infos below,
      Lined below (ColumnOrigin.Holds now tables infos)
        (ColumnOrigin.ofSources scope.database
          ⟨tables, clauses.columns.map SelectSources.itemOf⟩) p.results ∧
      ∀ env : Env, env.database = now → ∀ row ∈ (p.rows env).items,
        List.Forall₂ (SourceTable.Present now row) tables infos := by
  obtain ⟨infos, parts, expanded, steps, _, _, _, arranged, items, results, rows, joined⟩ :=
    selectCore_eq found
  have arranged : Plans (Source.arrange (Resolver.at_ depth) scope
      (Source.resolve (Resolver.at_ depth) scope (99 + 1)) [] 0 clauses.sources) before
      (infos, parts) _ := arranged
  have start := @Source.Layout.nil scope.database (∀ j ∈ clauses.sources, j.isPlain = true)
  obtain ⟨width, layout⟩ :=
    start.arranged common arranged collected (absurd rfl) traceable.commas id
  have traced : SelectSources.ofSelect? (.mk [] clauses.core [] order limit offset) =
      some ⟨tables, clauses.columns.map SelectSources.itemOf⟩ := by
    simp [SelectSources.ofSelect?, Clauses.core, collected]
  have tracing : Tracing scope.database now tables infos :=
    ⟨layout.traced, same, admitted, traceable.keys _ traced⟩
  have inside : ∀ env : Env, env.database = now → ∀ row ∈ (p.rows env).items,
      List.Forall₂ (SourceTable.Present now row) tables infos := by
    intro env here row member
    subst here
    rw [rows] at member
    exact (layout.present same admitted joined member).2
  have lined : ∀ below, Tracing.Guarded scope.database tables infos below →
      Lined below (ColumnOrigin.Holds now tables infos)
        (ColumnOrigin.ofSources scope.database
          ⟨tables, clauses.columns.map SelectSources.itemOf⟩) p.results := by
    intro below guarded
    rw [results]
    exact tracing.expandAll_lined guarded (by rw [levels]) items
  rcases traceable.shares with plain | known
  · exact ⟨infos, true, lined true ⟨fun _ => layout.columns_unshared plain, nofun⟩, inside⟩
  · exact ⟨infos, false, lined false ⟨nofun, fun _ => known _ traced⟩, inside⟩

/-- A result that is read from a filled place is missing in no row. -/
theorem Query.CorePlan.value_filled (p : CorePlan) {env : Env} (populated : p.Populated env)
    {tables : List SourceTable} {infos : List SourceInfo}
    (inside : ∀ row ∈ (p.rows env).items,
      List.Forall₂ (SourceTable.Present env.database row) tables infos)
    {i : Nat} {r : Result} (there : p.results[i]? = some r) {f : Scope.Found}
    (term : r.term = f.term) (level : f.level = 0)
    (filled : Filled env.database tables infos f.index) {row : List Stored}
    (returned : row ∈ (p.run env).items) : ∃ v, row[i]? = some v ∧ v ≠ .null := by
  obtain ⟨frame, shown, evaluated⟩ := mem_run returned
  obtain ⟨v, value, _, _, one⟩ := getElem?_of_forall₂ evaluated there
  refine ⟨v, value, ?_⟩
  rw [term] at one
  obtain ⟨rfl, _⟩ := runs_pure.1 one
  rw [level]
  rcases shown with known | ⟨aggregated, ungrouped, none⟩
  · exact filled frame.values (inside frame.values (filtered_mem known))
  · exact absurd none (populated aggregated ungrouped)

end SqlUnits
