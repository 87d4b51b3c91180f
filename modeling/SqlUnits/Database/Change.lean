import SqlUnits.Database.Query
import SqlUnits.Number.Natural
/-!
Changes of table contents. A change goes row by row and checks every rule on the way; one that
breaks a rule is undone as a whole, unless the statement says otherwise. The number of the last
inserted row stays even then.
-/

namespace SqlUnits

/-- How far a change has come. -/
structure Progress where
  database : Database
  lastId : Int64
  changes : Nat := 0
  returned : List (List Stored) := []
  calls : List FunctionCall := []

/-- Why a change stops, and what becomes of what it did. -/
structure Refusal where
  message : String
  conflict : Sql.Conflict := .abort

abbrev Changing := ExceptT Refusal (StateM Progress)

/-- A change whose names are resolved. -/
structure ChangePlan where
  columns : List ResultInfo
  run : Env → Changing Unit

namespace Change

open Sql (Conflict TableName Assignment ResultColumn Expr)

def evaluated (e : Eval α) : Changing α := do
  let (result, calls) := e.outcome
  modify fun p => { p with calls := p.calls ++ calls }
  match result with
  | .ok a => pure a
  | .error m => throw ⟨m, .abort⟩

/-- The table that a change names. -/
def target (scope : Scope) (name : TableName) : Planner Table := do
  let missing : Planner Table := Planner.refuse ("no such table: " ++ name.display)
  if !Database.isMainSchema name.schema then missing
  else
    match scope.database.table? name.name, scope.database.view? name.name with
    | some t, _ => pure t
    | none, some _ =>
        Planner.refuse ("cannot modify " ++ name.name ++ " because it is a view")
    | none, none =>
        if Source.isCatalogName name.name then
          Planner.refuse ("table " ++ name.name ++ " may not be modified")
        else missing

/-- The level in which the clauses of a change see its table. -/
def tableLevel (asName : Option String) (t : Table) : Level :=
  ⟨[Source.tableInfo (asName.getD t.name) t], []⟩

def withLevel (scope : Scope) (level : Level) : Scope :=
  { scope with levels := level :: scope.levels }

def returningPlan (r : Resolver) (scope : Scope) (t : Table) (columns : List ResultColumn) :
    Planner (List Query.Result) := do
  let level := tableLevel none t
  (·.flatten) <$> columns.mapM (Query.expand r (withLevel scope level) level.sources)

/-- The tests of a table, and what its columns hold by default. -/
structure TableRules where
  checks : List (Term × String)
  defaults : List Term

def tableRules (r : Resolver) (scope : Scope) (t : Table) : Planner TableRules := do
  let bare := { scope with common := [], levels := [] }
  let checks ← t.checks.mapM fun c => do
    let term ← Source.withoutOffset (r.term (withLevel bare (tableLevel none t)) c.condition)
    pure (term, c.text)
  let defaults ← t.columns.mapM fun c =>
    match c.default with
    | some e => Source.withoutOffset (r.term bare e)
    | none => pure (.constant .null)
  pure ⟨checks, defaults⟩

/-- The parents of a table must be there before its rows can be checked. -/
def checkParents (scope : Scope) (t : Table) : Planner Unit :=
  t.foreignKeys.forM fun key =>
    match scope.database.table? key.parent with
    | some _ => pure ()
    | none => Planner.refuse ("no such table: main." ++ key.parent)

def columnName (t : Table) (i : Nat) : String :=
  ((t.columns[i]?).map (·.name)).getD "rowid"

def uniqueMessage (t : Table) (columns : List Nat) : String :=
  "UNIQUE constraint failed: " ++
    String.intercalate ", " (columns.map fun i => t.name ++ "." ++ columnName t i)

def rowidMessage (t : Table) : String :=
  "UNIQUE constraint failed: " ++ t.name ++ "." ++
    ((t.rowidColumn.map (columnName t)).getD "rowid")

def valueAt (values : List Stored) (i : Nat) : Stored :=
  (values[i]?).getD .null

/-- Whether two rows agree in the columns of a rule; missing values never agree. -/
def agree (t : Table) (columns : List Nat) (a b : List Stored) : Bool :=
  columns.all fun i =>
    let collation := ((t.columns[i]?).map (·.collation)).getD .binary
    let x := valueAt a i
    !x.isNull && x.order collation (valueAt b i) == .eq

/-- Another row that agrees with a new one in the columns of a rule. -/
def rival? (t : Table) (columns : List Nat) (values : List Stored) (except : Option Int64) :
    Option Row :=
  t.rows.find? fun row => some row.id != except && agree t columns values row.values

def currentTable (t : Table) : Changing Table := do
  pure (((← get).database.table? t.name).getD t)

def setTable (t : Table) : Changing Unit :=
  modify fun p => { p with database := p.database.setTable t }

/-- What a broken rule means for the row: its message, or that the row is left out. -/
def broken (conflict : Conflict) (message : String) : Changing Bool :=
  match conflict with
  | .ignore => pure false
  | c => throw ⟨message, if c = .replace then .abort else c⟩

/-- Fills in what a missing value may be replaced by, and refuses it elsewhere. -/
def presentValues (t : Table) (rules : TableRules) (env : Env) (conflict : Conflict) :
    List (TableColumn × Nat) → List Stored → Changing (Option (List Stored))
  | (c, i) :: columns, v :: values => do
      let kept (v : Stored) : Changing (Option (List Stored)) := do
        pure ((← presentValues t rules env conflict columns values).map (v :: ·))
      match c.notNull with
      | none => kept v
      | some own =>
          if !v.isNull || t.rowidColumn == some i then kept v
          else
            let conflict := if conflict = .abort then own else conflict
            let message := "NOT NULL constraint failed: " ++ t.name ++ "." ++ c.name
            if conflict = .replace then
              let d ← evaluated (((rules.defaults[i]?).getD (.constant .null)).eval env)
              if d.isNull then throw ⟨message, .abort⟩ else kept d
            else
              let _ ← broken conflict message
              pure none
  | _, _ => pure (some [])

def checksHold (rules : TableRules) (env : Env) (conflict : Conflict) (row : List Stored) :
    Changing Bool := do
  let failed ← evaluated (rules.checks.filterM fun (t, _) => do
    pure ((← t.truth (env.push ⟨row, []⟩)) == some false))
  match failed with
  | [] => pure true
  | (_, text) :: _ => broken conflict ("CHECK constraint failed: " ++ text)

def removeRow (t : Table) (id : Int64) : Changing Unit := do
  setTable ((← currentTable t).removeRow id)

/-- Makes room for a row: rows that it may replace go, others stand in its way. -/
def clearUnique (t : Table) (conflict : Conflict) (values : List Stored) (own : Option Int64) :
    List UniqueRule → Changing Bool
  | [] => pure true
  | rule :: rest => do
      match rival? (← currentTable t) rule.columns values own with
      | none => clearUnique t conflict values own rest
      | some row =>
          if conflict = .replace then
            removeRow t row.id
            clearUnique t conflict values own rest
          else broken conflict (uniqueMessage t rule.columns)

def clearId (t : Table) (conflict : Conflict) (id : Int64) : Changing Bool := do
  match (← currentTable t).rows.find? (·.id == id) with
  | none => pure true
  | some _ =>
      if conflict = .replace then
        removeRow t id
        pure true
      else broken conflict (rowidMessage t)

/-- Makes room for the number of a row, unless it is certain to be free. -/
def clearNumber (t : Table) (conflict : Conflict) (inDoubt : Bool) (id : Int64) : Changing Bool :=
  if inDoubt then clearId t conflict id else pure true

def stored (t : Table) (values : List Stored) : List Stored :=
  (t.columns.zip values).map fun (c, v) => v.withAffinity c.affinity

/-- The number of a row from what was given for it; none if it is to be chosen. -/
def rowNumber (v : Stored) : Changing (Option Int64) :=
  match v.withAffinity .integer with
  | .null => pure none
  | .integer n => pure (some n)
  | _ => throw ⟨"datatype mismatch", .abort⟩

def withRowNumber (t : Table) (id : Int64) (values : List Stored) : List Stored :=
  match t.rowidColumn with
  | some i => values.set i (.integer id)
  | none => values

def returnRow (env : Env) (results : List Query.Result) (row : List Stored) : Changing Unit := do
  if !results.isEmpty then
    let values ← evaluated (results.mapM fun r => r.term.eval (env.push ⟨row, []⟩))
    modify fun p => { p with returned := p.returned ++ [values] }

def counted : Changing Unit :=
  modify fun p => { p with changes := p.changes + 1 }

/-- Puts new values in the place of a row. -/
def replaceRow (t : Table) (rules : TableRules) (env : Env) (conflict : Conflict) (old : Row)
    (newId : Int64) (values : List Stored) (results : List Query.Result) : Changing Unit := do
  let values := stored t (withRowNumber t newId values)
  match ← presentValues t rules env conflict t.columns.zipIdx values with
  | none => pure ()
  | some values =>
      let row : Row := ⟨newId, values⟩
      if !(← checksHold rules env conflict (Source.tableRow row)) then pure ()
      else if !(← clearNumber t conflict (newId != old.id) newId) then pure ()
      else if !(← clearUnique t conflict values (some old.id) t.unique) then pure ()
      else
        setTable (((← currentTable t).removeRow old.id).addRow row)
        counted
        returnRow env results (Source.tableRow row)

/-- What an insert does where its row has a rival. -/
structure UpsertPlan where
  columns : List Nat
  /-- The new values of the rival, from its row and from the new one; none to leave it. -/
  update : Option (Env → List Stored → Row → Eval (Option (List Stored)))

/-- The rival that an upsert is about. -/
def upsertRival? (t : Table) (plan : UpsertPlan) (id : Option Int64) (values : List Stored) :
    Option Row :=
  let wanted (columns : List Nat) : Bool := plan.columns.isEmpty || plan.columns == columns
  let byId :=
    if wanted t.rowidColumn.toList then
      id.bind fun id => t.rows.find? (·.id == id)
    else none
  byId <|> (t.unique.findSome? fun rule =>
    if wanted rule.columns then rival? t rule.columns values none else none)

/-- Puts a new row into its table, and returns its number, if nothing stands in its way. -/
def insertNew (t : Table) (rules : TableRules) (env : Env) (conflict : Conflict) (id : Int64)
    (values : List Stored) (explicitId : Bool) (results : List Query.Result) :
    Changing (Option Int64) := do
  let row : Row := ⟨id, values⟩
  if !(← checksHold rules env conflict (Source.tableRow row)) then pure none
  else if !(← clearNumber t conflict explicitId id) then pure none
  else if !(← clearUnique t conflict values none t.unique) then pure none
  else
    setTable ((← currentTable t).addRow row)
    if !t.withoutRowid then modify fun p => { p with lastId := id }
    counted
    returnRow env results (Source.tableRow row)
    pure (some id)

/-- Inserts a row, given its values and maybe its number. One that is left out, or that changes
its rival instead, has no number. -/
def insertRow (t : Table) (rules : TableRules) (env : Env) (conflict : Conflict)
    (upsert : Option UpsertPlan) (results : List Query.Result) (given : Stored)
    (values : List Stored) : Changing (Option Int64) := do
  let wished ← rowNumber (match t.rowidColumn with
    | some i => valueAt values i
    | none => given)
  let id := wished.getD (← currentTable t).nextId
  let values := stored t (withRowNumber t id values)
  match ← presentValues t rules env conflict t.columns.zipIdx values with
  | none => pure none
  | some values =>
      let now ← currentTable t
      match upsert.bind fun u => (upsertRival? now u wished values).map (u, ·) with
      | none => insertNew t rules env conflict id values wished.isSome results
      | some (u, rival) =>
          match u.update with
          | none => pure none
          | some f =>
              match ← evaluated (f env (Source.tableRow ⟨id, values⟩) rival) with
              | none => pure none
              | some new =>
                  replaceRow t rules env conflict rival rival.id new results
                  pure none

/-- Where the values of an insert go: the place of each column's value, and of the row number. -/
structure Placement where
  columns : List (Option Nat)
  rowid : Option Nat

/-- The places of the names of an insert. Of places for one column the first counts, of those for
the row number the last. -/
def placement (table : TableName) (t : Table) (names : List String) : Planner Placement := do
  names.forM fun n =>
    if (t.columnIndex? n).isSome || (Table.isRowidName n && !t.withoutRowid) then pure ()
    else Planner.refuse ("table " ++ table.display ++ " has no column named " ++ n)
  let find (column : String) : Option Nat := names.findIdx? (Text.sameLetters · column)
  let isNumber (n : String) : Bool :=
    match t.columnIndex? n with
    | some i => t.rowidColumn == some i
    | none => true
  let rowid := ((names.zipIdx.filter fun n => isNumber n.1).getLast?).map (·.2)
  if names.isEmpty then pure ⟨(List.range t.columns.length).map some, none⟩
  else
    let columns := t.columns.map fun c => find c.name
    let columns :=
      match t.rowidColumn, rowid with
      | some i, some k => columns.set i (some k)
      | _, _ => columns
    pure ⟨columns, rowid⟩

def placed (p : Placement) (defaults : List Stored) (values : List Stored) : List Stored :=
  (p.columns.zip defaults).map fun (place, d) =>
    match place with
    | some i => valueAt values i
    | none => d

/-- An assignment whose names are resolved: columns by place, or the row number. -/
structure Setter where
  columns : List (Option Nat)
  values : Env → Eval (List Stored)

def assignedPlace (t : Table) (n : String) : Planner (Option Nat) :=
  match t.columnIndex? n with
  | some i => pure (some i)
  | none =>
      if Table.isRowidName n && !t.withoutRowid then pure t.rowidColumn
      else Planner.refuse ("no such column: " ++ n)

def setter (r : Resolver) (scope : Scope) (t : Table) (a : Assignment) : Planner Setter := do
  let count := a.columns.length
  let wrong (n : Nat) : Planner Setter :=
    Planner.refuse (toString count ++ " columns assigned " ++ toString n ++ " values")
  if count = 1 then
    let term ← r.term scope a.value
    let places ← a.columns.mapM (assignedPlace t)
    pure ⟨places, fun env => do pure [← term.eval env]⟩
  else
    match a.value with
    | .scalar q => do
        let plan ← Expression.innerQuery r scope q
        let places ← a.columns.mapM (assignedPlace t)
        if plan.columns.length ≠ count then wrong plan.columns.length
        else
          pure ⟨places, fun env => do
            pure ((← (plan.run env).first?).getD (List.replicate count .null))⟩
    | e => do
        let items := Expression.rowItems e
        let terms ← Expression.terms r scope items
        let places ← a.columns.mapM (assignedPlace t)
        if items.length ≠ count then wrong items.length
        else pure ⟨places, fun env => terms.mapM fun t => t.eval env⟩

/-- The values of a row after assignments, and the number it is to have. -/
def assign (setters : List Setter) (env : Env) (t : Table) (row : Row) :
    Eval (List Stored × Stored) := do
  let changes ← setters.mapM fun s => do
    let vs ← s.values env
    pure (s.columns.zip vs)
  let values := changes.flatten.foldl (fun vs (place, v) =>
    match place with
    | some i => vs.set i v
    | none => vs) row.values
  let byName := (changes.flatten.filter (·.1.isNone)).getLast?.map (·.2)
  let id :=
    match t.rowidColumn with
    | some i => valueAt values i
    | none => byName.getD (.integer row.id)
  pure (values, id)

def upsertPlan (r : Resolver) (scope : Scope) (t : Table) (u : Sql.Upsert) :
    Planner UpsertPlan := do
  let columns ← u.columns.mapM fun n =>
    match t.columnIndex? n with
    | some i => pure i
    | none => Planner.refuse ("no such column: " ++ n)
  let known := columns == t.rowidColumn.toList || t.unique.any fun rule => rule.columns == columns
  if !columns.isEmpty && !known then
    Planner.refuse
      "ON CONFLICT clause does not match any PRIMARY KEY or UNIQUE constraint"
  match u.action with
  | .nothing => pure ⟨columns, none⟩
  | .update assignments condition =>
      let old := Source.tableInfo t.name t
      let new := { Source.tableInfo "excluded" t with start := t.columns.length + 1 }
      let inside := withLevel scope ⟨[old, new], []⟩
      let setters ← assignments.mapM (setter r inside t)
      let condition ← Expression.optional r inside condition
      pure ⟨columns, some fun env new row => do
        let env := env.push ⟨Source.tableRow row ++ new, []⟩
        let holds ←
          match condition with
          | some c => do pure ((← c.truth env) == some true)
          | none => pure true
        if holds then do
          let (values, _) ← assign setters env t row
          pure (some values)
        else pure none⟩

/-- How many rows lack a parent that they name. -/
def orphans (db : Database) : Nat :=
  let lacks (key : ForeignKey) (row : Row) : Bool :=
    let values := key.columns.map (valueAt row.values)
    if values.any Stored.isNull then false
    else
      match db.table? key.parent with
      | none => true
      | some parent =>
          let names := key.parentColumns
          let places :=
            if names.isEmpty then
              let keyed := parent.columns.zipIdx.filter fun (c, _) => c.keyPart > 0
              keyed.map (·.2)
            else names.filterMap parent.columnIndex?
          let fits (p : Row) : Bool :=
            (places.zip values).all fun (i, v) =>
              match parent.columns[i]? with
              | some c =>
                  (v.withAffinity c.affinity).order c.collation (valueAt p.values i) == .eq
              | none => false
          !parent.rows.any fits
  total (db.tables.map fun t =>
    total (t.foreignKeys.map fun key => (t.rows.filter (lacks key)).length))

/-- A change must not leave more rows without their parents than there were. -/
def checkKeys (before : Database) (enforced : Bool) : Changing Unit := do
  if enforced && orphans before < orphans (← get).database then
    throw ⟨"FOREIGN KEY constraint failed", .abort⟩

def resultInfos (results : List Query.Result) : List ResultInfo :=
  results.map Query.Result.info

def wrongWidth (name : TableName) (t : Table) (names : List String) (supplied : Nat) :
    Option String :=
  if names.isEmpty then
    if supplied = t.columns.length then none
    else
      some ("table " ++ name.display ++ " has " ++ toString t.columns.length ++
        " columns but " ++ toString supplied ++ " values were supplied")
  else if supplied = names.length then none
  else some (toString supplied ++ " values for " ++ toString names.length ++ " columns")

/-- An insert whose names are resolved. -/
structure Insertion where
  table : Table
  rows : Env → Run (List Stored)
  place : Placement
  rules : TableRules
  conflict : Conflict
  upsert : Option UpsertPlan
  results : List Query.Result
  /-- Whether parents are enforced. -/
  keys : Bool

namespace Insertion

/-- Inserts what a row of the source gives. -/
def insert (i : Insertion) (env : Env) (values : List Stored) : Changing (Option Int64) := do
  let defaults ← evaluated (i.rules.defaults.mapM fun d => d.eval env)
  let id := (i.place.rowid.map (valueAt values)).getD .null
  insertRow i.table i.rules env i.conflict i.upsert i.results id (placed i.place defaults values)

/-- Inserts all rows of the source; the numbers are of those that have been put in, in order. -/
def run (i : Insertion) (env : Env) : Changing (List Int64) := do
  let given ← evaluated (i.rows env).all
  let numbers ← given.mapM (i.insert env)
  checkKeys env.database i.keys
  pure numbers.reduceOption

end Insertion

def insertion (r : Resolver) (scope : Scope) (keys : Bool) (conflict : Conflict)
    (name : TableName) (names : List String) (source : Sql.InsertSource)
    (upsert : Option Sql.Upsert) (returning : List ResultColumn) : Planner Insertion := do
  let t ← target scope name
  let place ← placement name t names
  let rows : Env → Run (List Stored) ←
    match source with
    | .defaults => pure fun _ => Run.ofList [[]]
    | .query q => do
        let plan ← Expression.innerQuery r scope q
        match wrongWidth name t names plan.columns.length with
        | some m => Planner.refuse m
        | none => pure plan.run
  let place :=
    match source with
    | .defaults => ⟨t.columns.map fun _ => none, none⟩
    | .query _ => place
  let rules ← tableRules r scope t
  if keys then checkParents scope t
  let upsert ←
    match upsert with
    | some u => some <$> upsertPlan r scope t u
    | none => pure none
  let results ← returningPlan r scope t returning
  pure { table := t, rows, place, rules, conflict, upsert, results, keys }

def insertPlan (r : Resolver) (scope : Scope) (keys : Bool) (conflict : Conflict)
    (name : TableName) (names : List String) (source : Sql.InsertSource)
    (upsert : Option Sql.Upsert) (returning : List ResultColumn) : Planner ChangePlan := do
  let i ← insertion r scope keys conflict name names source upsert returning
  pure
    { columns := resultInfos i.results
      run := fun env => do
        let _ ← i.run env }

/-- The rows of a table that satisfy a condition, each with the row its clauses see. -/
def matching (t : Table) (others : Env → Run (List Stored)) (conditions : List Term) (env : Env) :
    Eval (List (Row × List Stored)) := do
  let table := (env.database.table? t.name).getD t
  let found ← table.rows.mapM fun row => do
    let all := (others env).bind fun other => Run.ofList [Source.tableRow row ++ other]
    let fits := all.filterEval fun values => Source.allHold conditions (env.push ⟨values, []⟩)
    pure ((← fits.first?).map (row, ·))
  pure (found.filterMap id)

def updatePlan (r : Resolver) (scope : Scope) (keys : Bool) (conflict : Conflict)
    (name : TableName) (asName : Option String) (assignments : List Assignment)
    (sources : List Sql.Joined) (condition : Option Expr) (returning : List ResultColumn) :
    Planner ChangePlan := do
  let t ← target scope name
  let (infos, parts) ← Source.arranged r scope sources
  let own := Source.tableInfo (asName.getD t.name) t
  let width := t.columns.length + 1
  let level : Level := ⟨own :: infos.map (Source.shift width), []⟩
  let inside := withLevel scope level
  let setters ← assignments.mapM (setter r inside t)
  let steps ← parts.mapM (Source.joinStep r { scope with levels := ⟨infos, []⟩ :: scope.levels })
  let condition ← Expression.optional r inside condition
  let rules ← tableRules r scope t
  if keys then checkParents scope t
  let results ← returningPlan r scope t returning
  let others := if sources.isEmpty then fun _ => Run.ofList [[]] else Source.joinedRows steps
  pure
    { columns := resultInfos results
      run := fun env => do
        let found ← evaluated (matching t others condition.toList env)
        found.forM fun (row, values) => do
          let (new, id) ← evaluated (assign setters (env.push ⟨values, []⟩) t row)
          match ← rowNumber id with
          | some id => replaceRow t rules env conflict row id new results
          | none => throw ⟨"datatype mismatch", .abort⟩
        checkKeys env.database keys }

def deletePlan (r : Resolver) (scope : Scope) (keys : Bool) (name : TableName)
    (asName : Option String) (condition : Option Expr) (returning : List ResultColumn) :
    Planner ChangePlan := do
  let t ← target scope name
  let condition ← Expression.optional r (withLevel scope (tableLevel asName t)) condition
  let results ← returningPlan r scope t returning
  pure
    { columns := resultInfos results
      run := fun env => do
        let found ← evaluated (matching t (fun _ => Run.ofList [[]]) condition.toList env)
        found.forM fun (row, _) => do
          removeRow t row.id
          counted
          returnRow env results (Source.tableRow row)
        checkKeys env.database keys }

/-- Resolves the names of a change; `keys` tells whether parents are enforced. -/
def resolve (r : Resolver) (scope : Scope) (keys : Bool) : Sql.Change → Planner ChangePlan
  | .insert common conflict table columns source upsert returning =>
      insertPlan r { scope with common } keys conflict table columns source upsert returning
  | .update common conflict table asName assignments sources condition returning =>
      updatePlan r { scope with common } keys conflict table asName assignments sources condition
        returning
  | .delete common table asName condition returning =>
      deletePlan r { scope with common } keys table asName condition returning

end Change

end SqlUnits
