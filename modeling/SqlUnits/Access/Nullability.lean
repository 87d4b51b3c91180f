import SqlUnits.Access.Column
import SqlUnits.Sql.Projection
/-!
Which columns of a result can be missing. A column read straight from a table is what its table
says, unless an outer join makes the table optional; of any other column nothing is known.
-/

namespace SqlUnits

/-- What is known of a column of a table. -/
structure ColumnFact where
  name : String
  declType : String
  isNotNull : Bool
deriving DecidableEq

namespace ColumnFact

/-- A row number is never missing, and a column that is the whole key, declared `INTEGER`, is the
row number. -/
def ofTable (t : Table) : List ColumnFact :=
  let keys := (t.columns.filter fun c => c.keyPart > 0).length
  t.columns.map fun c =>
    let decl := c.declType.getD ""
    let isRowid := c.keyPart > 0 && keys == 1 && Text.sameLetters decl "INTEGER"
    ⟨c.name, decl, c.notNull.isSome || isRowid⟩

/-- The columns of a table; of views and unknown names there are none. -/
def ofName (db : Database) (table : String) : List ColumnFact :=
  ((db.table? table).map ofTable).getD []

end ColumnFact

/-- A table of a query with its columns. -/
structure TracedTable where
  source : SourceTable
  columns : List ColumnFact

/-- Where a result column comes from: a column, and whether its table is optional. -/
structure ColumnOrigin where
  fact : ColumnFact
  outer : Bool

namespace ColumnOrigin

def answers (qualifier : Option String) (t : TracedTable) : Bool :=
  qualifier.all t.source.answersTo

/-- The column that a name means, if only one table has it. -/
def resolve? (tables : List TracedTable) (qualifier : Option String) (name : String) :
    Option ColumnOrigin :=
  let found := (tables.filter (answers qualifier)).filterMap fun t =>
    (t.columns.find? fun c => Text.sameLetters c.name name).map (⟨·, t.source.outer⟩)
  match found with
  | [origin] => some origin
  | _ => none

/-- The origins of the columns that an item of a list stands for. -/
def ofItem (tables : List TracedTable) : ProjectionItem → List (Option ColumnOrigin)
  | .column qualifier name => [resolve? tables qualifier name]
  | .wildcard qualifier =>
      (tables.filter (answers qualifier)).flatMap fun t =>
        t.columns.map fun c => some ⟨c, t.source.outer⟩
  | .expression => [none]

def ofSources (db : Database) (sources : SelectSources) : List (Option ColumnOrigin) :=
  let tables := sources.tables.map fun t => (⟨t, ColumnFact.ofName db t.name⟩ : TracedTable)
  sources.items.flatMap (ofItem tables)

/-- Marks a column whose declared type is that of its origin. -/
def mark (column : ColumnInfo) (origin : Option ColumnOrigin) : ColumnInfo :=
  match column.sqlType, origin with
  | some decl, some o =>
      if Text.sameLetters o.fact.declType decl then
        { column with nullable := if o.outer || !o.fact.isNotNull then .yes else .no }
      else column
  | _, _ => column

end ColumnOrigin

/-- Fills in what the schema tells about the columns of a query, if they can be traced. -/
def discoverNullability (db : Database) (sql : String) (columns : List ColumnInfo) :
    List ColumnInfo :=
  match SelectSources.ofText? sql with
  | none => columns
  | some sources =>
      let origins := ColumnOrigin.ofSources db sources
      if origins.length = columns.length then
        (columns.zip origins).map fun (c, o) => ColumnOrigin.mark c o
      else columns

/-- The columns of a statement, described with the first row of its run. -/
def Connection.describe (c : Connection) (sql : String) (s : Statement) (values : List Stored) :
    Except DriverError (List ColumnInfo) × Connection :=
  let execution := c.run s values
  let (first, calls) := execution.rows.first?.outcome
  let after := execution.connection.logged calls
  let described := do
    let first ← first.mapError .failure
    pure (discoverNullability after.database sql (describeColumns s.columns first))
  (described, after)

end SqlUnits
