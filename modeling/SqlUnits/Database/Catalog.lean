import SqlUnits.Database.Change
/-!
Changes of the catalog: tables, views and indexes come, change and go. What a change requires is
checked before it runs.
-/

namespace SqlUnits

namespace Catalog

open Sql (SchemaChange TableName ColumnDef ColumnRule TableRule)

/-- Types whose name is kept in capitals however it was written. -/
def standardTypes : List String := ["ANY", "BLOB", "INT", "INTEGER", "REAL", "TEXT"]

def declaredType (type : String) : Option String :=
  if type.isEmpty then none
  else some (((standardTypes.find? (Text.sameLetters · type))).getD type)

def columnOf (d : ColumnDef) : TableColumn :=
  let start : TableColumn :=
    { name := d.name, declType := declaredType d.type, affinity := .ofType d.type }
  d.rules.foldl (fun c rule =>
    match rule with
    | .notNull conflict => { c with notNull := some conflict }
    | .default e => { c with default := some e }
    | .collate name => { c with collation := (Collation.ofName? name).getD c.collation }
    | _ => c) start

def places (columns : List TableColumn) (names : List (String × Nat)) : Planner (List Nat) :=
  names.mapM fun (n, offset) =>
    match columns.findIdx? fun c => Text.sameLetters c.name n with
    | some i => pure i
    | none => Planner.refuse ("no such column: " ++ n) (some offset)

def duplicate? : List String → Option String
  | names =>
      let rec from_ (seen : List String) : List String → Option String
        | [] => none
        | n :: rest =>
            if seen.any (Text.sameLetters · n) then some n else from_ (n :: seen) rest
      from_ [] names

/-- Columns that no two rows share, as a column or the table states it. -/
structure KeyClause where
  columns : List Nat
  primary : Bool := false
  descending : Bool := false
  increasing : Bool := false

def columnKeys (defs : List ColumnDef) : List KeyClause :=
  defs.zipIdx.flatMap fun (d, i) => d.rules.filterMap fun
    | .primaryKey descending increasing => some ⟨[i], true, descending, increasing⟩
    | .unique => some { columns := [i] }
    | _ => none

def tableKeys (columns : List TableColumn) (rules : List TableRule) :
    Planner (List KeyClause) := do
  let found ← rules.mapM fun
    | .primaryKey names => do pure [{ columns := ← places columns names, primary := true }]
    | .unique names => do pure [{ columns := ← places columns names }]
    | _ => pure []
  pure found.flatten

/-- The sets of columns without equals, each of them once; the last one comes first. -/
def uniqueRules (keys : List KeyClause) : List UniqueRule :=
  let rec from_ (seen : List UniqueRule) : List KeyClause → List UniqueRule
    | [] => seen
    | k :: rest =>
        if seen.any (·.columns == k.columns) then from_ seen rest
        else from_ (⟨k.columns, none⟩ :: seen) rest
  from_ [] keys

def foreignKeys (columns : List TableColumn) (defs : List ColumnDef) (rules : List TableRule) :
    Planner (List ForeignKey) := do
  let own := defs.zipIdx.flatMap fun (d, i) => d.rules.filterMap fun
    | .references table parents => some (⟨[i], table, parents⟩ : ForeignKey)
    | _ => none
  let shared ← rules.mapM fun
    | .foreignKey names table parents => do
        let found ← names.mapM fun n =>
          match columns.findIdx? fun c => Text.sameLetters c.name n with
          | some i => pure i
          | none =>
              Planner.refuse ("unknown column \"" ++ n ++ "\" in foreign key definition")
        pure [(⟨found, table, parents⟩ : ForeignKey)]
    | _ => pure []
  pure (own ++ shared.flatten)

def checkRules (defs : List ColumnDef) (rules : List TableRule) : List CheckRule :=
  (defs.flatMap fun d => d.rules.filterMap fun
    | .check e text => some ⟨e, text⟩
    | _ => none) ++
  rules.filterMap fun
    | .check e text => some ⟨e, text⟩
    | _ => none

/-- Whether a key of one column is the row number. -/
def isRowNumber (columns : List TableColumn) (key : KeyClause) : Bool :=
  match key.columns with
  | [i] =>
      !key.descending && ((columns[i]?).bind (·.declType)) == some "INTEGER"
  | _ => false

def withKeyParts (found : List Nat) (required : Bool) (columns : List TableColumn) :
    List TableColumn :=
  columns.zipIdx.map fun (c, i) =>
    match found.findIdx? (· == i) with
    | some k =>
        { c with
          keyPart := k + 1
          notNull := if required then c.notNull <|> some .abort else c.notNull }
    | none => c

def tableOf (name : String) (defs : List ColumnDef) (rules : List TableRule)
    (withoutRowid : Bool) (text : String) : Planner Table := do
  let columns := defs.map columnOf
  if let some n := duplicate? (defs.map (·.name)) then
    Planner.refuse ("duplicate column name: " ++ n)
  let keys := columnKeys defs ++ (← tableKeys columns rules)
  let primary := keys.filter (·.primary)
  if primary.length > 1 then
    Planner.refuse ("table \"" ++ name ++ "\" has more than one primary key")
  let foreign ← foreignKeys columns defs rules
  let base : Table :=
    { name, columns, withoutRowid, unique := uniqueRules keys, foreignKeys := foreign
      checks := checkRules defs rules, text }
  match primary with
  | [] =>
      if withoutRowid then Planner.refuse ("PRIMARY KEY missing on table " ++ name)
      else pure base
  | key :: _ =>
      let columns := withKeyParts key.columns withoutRowid columns
      if !withoutRowid && isRowNumber columns key then
        pure
          { base with
            columns, rowidColumn := key.columns.head?, increasing := key.increasing
            unique := uniqueRules (keys.filter (!·.primary)) }
      else if key.increasing then
        Planner.refuse "AUTOINCREMENT is only allowed on an INTEGER PRIMARY KEY"
      else pure { base with columns }

def isReserved (name : String) : Bool :=
  (name.toList.take 7).map Text.lower == "sqlite_".toList

/-- A new name must not be taken; `none` when that does not matter. -/
def newName (db : Database) (name : TableName) (offset : Nat) (lenient : Bool) :
    Planner (Option Unit) := do
  if !name.schema.all Database.isSchemaName then
    Planner.refuse ("unknown database " ++ name.schema.getD "")
  if isReserved name.name then
    Planner.refuse ("object name reserved for internal use: " ++ name.name)
  let taken (kind : String) : Planner (Option Unit) :=
    if lenient then pure none
    else Planner.refuse (kind ++ " " ++ name.name ++ " already exists") (some offset)
  match db.table? name.name, db.view? name.name, db.index? name.name with
  | some _, _, _ => taken "table"
  | none, some _, _ => taken "view"
  | none, none, some _ => Planner.refuse ("there is already an index named " ++ name.name)
  | none, none, none => pure (some ())

/-- What a change of the catalog does when it runs. -/
abbrev Effect := Env → Eval Database

def unchanged : Effect := fun env => pure env.database

def typeOfAffinity : Option Affinity → String
  | some .text => "TEXT"
  | some .numeric => "NUM"
  | some .integer => "INT"
  | some .real => "REAL"
  | _ => ""

def createTableAs (r : Resolver) (scope : Scope) (name : String) (q : Sql.Select)
    (text : String) : Planner Effect := do
  let plan ← Expression.innerQuery r scope q
  let names := Source.distinctNames [] (plan.columns.map (·.name))
  let defs := (names.zip plan.columns).map fun (n, c) =>
    (⟨n, typeOfAffinity c.affinity, []⟩ : ColumnDef)
  let t ← tableOf name defs [] false text
  pure fun env => do
    let rows ← (plan.run env).all
    let filled := rows.foldl (fun t row => t.addRow ⟨t.nextId, Change.stored t row⟩) t
    pure (env.database.addTable filled)

def createIndex (db : Database) (unique lenient : Bool) (index : TableName) (table : String)
    (columns : List (String × Nat)) (text : String) : Planner Effect := do
  match db.table? table with
  | none =>
      if (db.view? table).isSome then Planner.refuse "views may not be indexed"
      else Planner.refuse ("no such table: main." ++ table)
  | some t => do
      if isReserved index.name then
        Planner.refuse ("object name reserved for internal use: " ++ index.name)
      if (db.table? index.name).isSome then
        Planner.refuse ("there is already a table named " ++ index.name)
      if (db.index? index.name).isSome then
        if lenient then return unchanged
        else Planner.refuse ("index " ++ index.name ++ " already exists")
      let found ← places t.columns columns
      pure fun env => do
        let db := env.database
        let now := (db.table? table).getD t
        let clash := now.rows.any fun row =>
          (Change.rival? now found row.values (some row.id)).isSome
        if unique && clash then Eval.fail (Change.uniqueMessage now found)
        else
          let rules := if unique then ⟨found, some index.name⟩ :: now.unique else now.unique
          let db := db.setTable { now with unique := rules }
          pure { db with indexes := db.indexes ++ [⟨index.name, now.name, text⟩] }

def dropTable (db : Database) (lenient keys : Bool) (name : TableName) : Planner Effect := do
  match db.table? name.name, db.view? name.name with
  | some t, _ =>
      pure fun env =>
        let after := env.database.dropTable t.name
        if keys && Change.orphans env.database < Change.orphans after then
          Eval.fail "FOREIGN KEY constraint failed"
        else pure after
  | none, some v => Planner.refuse ("use DROP VIEW to delete view " ++ v.name)
  | none, none =>
      if lenient then pure unchanged else Planner.refuse ("no such table: " ++ name.display)

def dropView (db : Database) (lenient : Bool) (name : TableName) : Planner Effect := do
  match db.view? name.name, db.table? name.name with
  | some v, _ => pure fun env => pure (env.database.dropView v.name)
  | none, some t => Planner.refuse ("use DROP TABLE to delete table " ++ t.name)
  | none, none =>
      if lenient then pure unchanged else Planner.refuse ("no such view: " ++ name.display)

def dropIndex (db : Database) (lenient : Bool) (name : TableName) : Planner Effect := do
  match db.index? name.name with
  | some i =>
      pure fun env =>
        let db := env.database
        let tables := db.tables.map fun t =>
          { t with unique := t.unique.filter (·.index != some i.name) }
        pure { db with
          tables, indexes := db.indexes.filter fun j => !Text.sameLetters j.name i.name }
  | none =>
      if lenient then pure unchanged else Planner.refuse ("no such index: " ++ name.display)

def hasRule (d : ColumnDef) (p : ColumnRule → Bool) : Bool := d.rules.any p

def addColumn (r : Resolver) (scope : Scope) (name : TableName) (d : ColumnDef) :
    Planner Effect := do
  match scope.database.table? name.name with
  | none =>
      if (scope.database.view? name.name).isSome then
        Planner.refuse "Cannot add a column to a view"
      else Planner.refuse ("no such table: " ++ name.display)
  | some t => do
      if (t.columnIndex? d.name).isSome then
        Planner.refuse ("duplicate column name: " ++ d.name)
      if hasRule d fun | .primaryKey _ _ => true | _ => false then
        Planner.refuse "Cannot add a PRIMARY KEY column"
      if hasRule d fun | .unique => true | _ => false then
        Planner.refuse "Cannot add a UNIQUE column"
      let c := columnOf d
      if c.notNull.isSome && c.default.isNone then
        Planner.refuse "Cannot add a NOT NULL column with default value NULL"
      let value ←
        match c.default with
        | some e => r.term { scope with levels := [] } e
        | none => pure (.constant .null)
      pure fun env => do
        let v ← value.eval env
        let now := (env.database.table? t.name).getD t
        let rows := now.rows.map fun row =>
          { row with values := row.values ++ [v.withAffinity c.affinity] }
        pure (env.database.setTable { now with columns := now.columns ++ [c], rows })

def renameTable (db : Database) (name : TableName) (new : String) : Planner Effect := do
  match db.table? name.name with
  | none =>
      if (db.view? name.name).isSome then
        Planner.refuse ("view " ++ name.name ++ " may not be altered")
      else Planner.refuse ("no such table: " ++ name.display)
  | some t => do
      if (db.table? new).isSome || (db.view? new).isSome || (db.index? new).isSome then
        Planner.refuse ("there is already another table or index with this name: " ++ new)
      pure fun env =>
        let db := env.database
        let rename (u : Table) : Table :=
          if Text.sameLetters u.name t.name then { u with name := new } else u
        pure { db with tables := db.tables.map rename }

/-- Resolves a change of the catalog. -/
def resolve (r : Resolver) (scope : Scope) (keys : Bool) (change : SchemaChange) :
    Planner Effect := do
  let db := scope.database
  match change with
  | .createTable lenient name offset columns rules withoutRowid text =>
      match ← newName db name offset lenient with
      | none => pure unchanged
      | some _ => do
          let t ← tableOf name.name columns rules withoutRowid text
          pure fun env => pure (env.database.addTable t)
  | .createTableAs lenient name offset query text =>
      match ← newName db name offset lenient with
      | none => pure unchanged
      | some _ => createTableAs r scope name.name query text
  | .createView lenient name offset columns query text =>
      match ← newName db name offset lenient with
      | none => pure unchanged
      | some _ =>
          pure fun env =>
            pure { env.database with
              views := env.database.views ++ [⟨name.name, columns, query, text⟩] }
  | .createIndex unique lenient index table columns text =>
      createIndex db unique lenient index table columns text
  | .dropTable lenient name => dropTable db lenient keys name
  | .dropView lenient name => dropView db lenient name
  | .dropIndex lenient name => dropIndex db lenient name
  | .addColumn name column => addColumn r scope name column
  | .renameTable name new => renameTable db name new

end Catalog

end SqlUnits
