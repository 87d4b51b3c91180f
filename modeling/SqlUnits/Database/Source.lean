import SqlUnits.Database.Expression
import SqlUnits.Number.Natural
/-!
Sources of rows: tables, views, common tables, queries, and their joins. A join runs through its
sources from left to right.
-/

namespace SqlUnits

/-- Sources side by side, and the rows that they yield together. -/
structure SourcePlan where
  infos : List SourceInfo
  width : Nat
  rows : Env → Run (List Stored)

namespace Source

open Sql (Joined JoinKind)

/-- A name that no other column has, with a number behind it if there must be one. -/
def freshName (taken : List String) (name : String) : Nat → Nat → String
  | 0, _ => name
  | fuel + 1, n =>
      let candidate := if n = 0 then name else name ++ ":" ++ toString n
      if taken.any (Text.sameLetters · candidate) then freshName taken name fuel (n + 1)
      else candidate

def distinctNames (taken : List String) : List String → List String
  | [] => []
  | n :: rest =>
      let n := freshName taken n (taken.length + 1) 0
      n :: distinctNames (taken ++ [n]) rest

/-- The columns of a query as the columns of a source. -/
def columnsOf (names : List String) (q : QueryPlan) : List SourceColumn :=
  let names := if names.isEmpty then distinctNames [] (q.columns.map (·.innerName)) else names
  (names.zip q.columns).map fun (n, c) =>
    ⟨n, c.affinity, c.collation.getD .binary, c.innerType, false⟩

def ofQuery (name : String) (names : List String) (q : QueryPlan) : SourcePlan where
  infos := [⟨name, columnsOf names q, none, 0⟩]
  width := q.columns.length
  rows := q.run

def tableColumn (c : TableColumn) : SourceColumn :=
  ⟨c.name, some c.affinity, c.collation, c.declType, false⟩

/-- A table's row number stands behind its columns, under the name of the column that it is. -/
def tableInfo (name : String) (t : Table) : SourceInfo where
  name := name
  columns := t.columns.map tableColumn
  rowid :=
    if t.withoutRowid then none
    else
      let label := (t.rowidColumn.bind fun i => (t.columns[i]?).map (·.name)).getD "rowid"
      some (t.columns.length, label)

def tableRow (row : Row) : List Stored :=
  row.values ++ [.integer row.id]

/-- The rows of a table as it is when the statement runs. -/
def tableRows (name : String) (env : Env) : Run (List Stored) :=
  match env.database.table? name with
  | some t => .ofList (t.rows.map tableRow)
  | none => .failed ("no such table: " ++ name)

def ofTable (asName : Option String) (t : Table) : SourcePlan where
  infos := [tableInfo (asName.getD t.name) t]
  width := t.columns.length + 1
  rows := tableRows t.name

def listColumns (columns : List (String × String)) : List SourceColumn :=
  columns.map fun (n, type) =>
    ⟨n, if type.isEmpty then none else some (.ofType type), .binary,
      if type.isEmpty then none else some type, false⟩

def schemaRow (kind name table text : String) : List Stored :=
  [.text kind, .text name, .text table, .integer 0, .text text]

/-- The catalog as a table. -/
def catalogRows (db : Database) : List (List Stored) :=
  db.tables.map (fun t => schemaRow "table" t.name t.name ("CREATE TABLE " ++ t.text)) ++
    db.indexes.map (fun i => schemaRow "index" i.name i.table ("CREATE INDEX " ++ i.text)) ++
    db.views.map (fun v => schemaRow "view" v.name v.name ("CREATE VIEW " ++ v.text))

def catalog (asName : String) : SourcePlan where
  infos := [⟨asName, listColumns [("type", "TEXT"), ("name", "TEXT"), ("tbl_name", "TEXT"),
    ("rootpage", "INT"), ("sql", "TEXT")], none, 0⟩]
  width := 5
  rows := fun env => .ofList (catalogRows env.database)

def isCatalogName (name : String) : Bool :=
  ["sqlite_schema", "sqlite_master"].any (Text.sameLetters · name)

def columnFact (index : Nat) (c : TableColumn) : List Stored :=
  [.ofInt index, .text c.name, .text (c.declType.getD ""), .ofBool c.notNull.isSome, .null,
    .ofInt c.keyPart]

/-- The columns of a table, or of a view, as rows. -/
def columnFacts (db : Database) (name : String) : List (List Stored) :=
  match db.table? name with
  | some t => t.columns.zipIdx.map fun (c, i) => columnFact i c
  | none => []

def columnFactNames : List (String × String) :=
  [("cid", ""), ("name", ""), ("type", ""), ("notnull", ""), ("dflt_value", ""), ("pk", "")]

def columnFactSource (asName : String) (table : Term) : SourcePlan where
  infos := [⟨asName, listColumns columnFactNames, none, 0⟩]
  width := 6
  rows := fun env =>
    (Run.ofEval (table.eval env)).bind fun v =>
      .ofList (columnFacts env.database (String.ofList (Scalar.textOf v)))

/-- The scope in which a view's own query is read. -/
def viewScope (scope : Scope) : Scope :=
  { scope with common := [], levels := [] }

/-- A failure inside a view points at no place in the statement. -/
def withoutOffset (p : Planner α) : Planner α := fun calls =>
  match p.run calls with
  | .ok r => .ok r
  | .error e => .error { e with offset := none }

def ofView (r : Resolver) (scope : Scope) (asName : Option String) (v : View) :
    Planner SourcePlan := do
  let q ← withoutOffset (Expression.innerQuery r (viewScope scope) v.query)
  if !v.columns.isEmpty && v.columns.length ≠ q.columns.length then
    Planner.refuse ("expected " ++ toString v.columns.length ++ " columns for '" ++ v.name ++
      "' but got " ++ toString q.columns.length)
  else
    let names := if v.columns.isEmpty then distinctNames [] (q.columns.map (·.name)) else v.columns
    pure (ofQuery (asName.getD v.name) names q)

/-- The common table of a name, and those that its own query sees. -/
def common? (name : String) : List Sql.CommonTable → List Sql.CommonTable →
    Option (Sql.CommonTable × List Sql.CommonTable)
  | _, [] => none
  | before, .mk n columns q :: rest =>
      if Text.sameLetters n name then some (.mk n columns q, before ++ rest)
      else common? name (before ++ [.mk n columns q]) rest

def ofCommon (r : Resolver) (scope : Scope) (asName : Option String) (t : Sql.CommonTable)
    (visible : List Sql.CommonTable) : Planner SourcePlan := do
  match t with
  | .mk name columns query =>
      let q ← Expression.innerQuery r { scope with common := visible } query
      if !columns.isEmpty && columns.length ≠ q.columns.length then
        Planner.refuse ("table " ++ name ++ " has " ++ toString q.columns.length ++
          " values for " ++ toString columns.length ++ " columns")
      else pure (ofQuery (asName.getD name) columns q)

def ofName (r : Resolver) (scope : Scope) (t : Sql.TableName) (asName : Option String) :
    Planner SourcePlan := do
  let missing : Planner SourcePlan := Planner.refuse ("no such table: " ++ t.display)
  let shared := if t.schema.isNone then common? t.name [] scope.common else none
  match shared with
  | some (c, visible) => ofCommon r scope asName c visible
  | none =>
      if !Database.isMainSchema t.schema then missing
      else
        match scope.database.table? t.name, scope.database.view? t.name with
        | some table, _ => pure (ofTable asName table)
        | none, some v => ofView r scope asName v
        | none, none =>
            if isCatalogName t.name then pure (catalog (asName.getD t.name)) else missing

def ofCall (r : Resolver) (scope : Scope) (name : String) (args : List Sql.Expr)
    (asName : Option String) : Planner SourcePlan := do
  match Text.lowerString name, args with
  | "pragma_table_info", e :: _ =>
      let t ← r.term scope e
      pure (columnFactSource (asName.getD name) t)
  | _, _ =>
      if (scope.database.table? name).isSome then
        Planner.refuse ("'" ++ name ++ "' is not a function")
      else Planner.refuse ("no such table: " ++ name)

/-- A source moved behind others in the row. -/
def shift (start : Nat) (s : SourceInfo) : SourceInfo :=
  { s with start := s.start + start }

/-- A source in a join: how it joins, what it yields, its condition, the columns it shares. -/
structure JoinPart where
  kind : JoinKind
  plan : SourcePlan
  condition : Option Sql.Expr
  /-- Places of equal columns, before it and in it. -/
  shared : List (Scope.Found × Scope.Found)

/-- The columns that two sides of a natural join have in common. -/
def commonNames (left right : List SourceInfo) : List String :=
  let names (s : List SourceInfo) : List String :=
    s.flatMap fun i => (i.columns.filter (!·.shared)).map (·.name)
  (names right).filter fun n => (names left).any (Text.sameLetters · n)

def firstNamed (name : String) (sources : List SourceInfo) : Option Scope.Found :=
  (sources.flatMap (Scope.columnsNamed 0 name false)).head?

def sharedPair (left right : List SourceInfo) (name : String) :
    Planner (Scope.Found × Scope.Found) := do
  match firstNamed name left, firstNamed name right with
  | some a, some b => pure (a, b)
  | _, _ =>
      Planner.refuse ("cannot join using column " ++ name ++
        " - column not present in both tables")

def markShared (names : List String) (s : SourceInfo) : SourceInfo :=
  { s with
    columns := s.columns.map fun c =>
      if names.any (Text.sameLetters · c.name) then { c with shared := true } else c }

/-- One row of the left side with every row of the right side that fits; the number tells which. -/
def matches_ (holds : List Stored → Eval Bool) (right : List (List Stored)) (left : List Stored) :
    Run (Nat × List Stored) :=
  (Run.ofList (right.zipIdx.map fun (row, i) => (i, left ++ row))).filterEval fun m => holds m.2

/-- Joins rows. On an optional side missing values stand for a row that fits none. -/
def joinRows (kind : JoinKind) (leftWidth rightWidth : Nat) (holds : List Stored → Eval Bool)
    (left : Run (List Stored)) (right : List (List Stored)) : Run (List Stored) :=
  let absent (n : Nat) : List Stored := List.replicate n .null
  let one (row : List Stored) : Run (Option Nat × List Stored) :=
    let found := (matches_ holds right row).bind fun (i, m) => Run.ofList [(some i, m)]
    if kind.left && found.items.isEmpty then
      found.append (.ofList [(none, row ++ absent rightWidth)])
    else found
  let joined := left.bind one
  let rows := joined.bind fun m => Run.ofList [m.2]
  if kind.right then
    let used := joined.items.filterMap (·.1)
    let rest := right.zipIdx.filter fun (_, i) => !used.contains i
    rows.append (.ofList (rest.map fun (row, _) => absent leftWidth ++ row))
  else rows

/-- The conditions of a join, resolved. -/
structure JoinStep where
  kind : JoinKind
  plan : SourcePlan
  conditions : List Term

def allHold (conditions : List Term) (env : Env) : Eval Bool := do
  match conditions with
  | [] => pure true
  | t :: rest => if (← t.truth env) == some true then allHold rest env else pure false

def runJoin (env : Env) (width : Nat) (rows : Run (List Stored)) : List JoinStep →
    Run (List Stored)
  | [] => rows
  | step :: rest =>
      let holds (row : List Stored) : Eval Bool := allHold step.conditions (env.push ⟨row, []⟩)
      let joined :=
        (step.plan.rows env).gather fun right =>
          joinRows step.kind width step.plan.width holds rows right
      runJoin env (width + step.plan.width) joined rest

/-- Puts sources side by side. -/
def arrange (r : Resolver) (scope : Scope) (plan : Joined → Planner SourcePlan)
    (infos : List SourceInfo) (width : Nat) : List Joined →
    Planner (List SourceInfo × List JoinPart)
  | [] => pure (infos, [])
  | .mk kind source condition names :: rest => do
      let p ← plan (.mk kind source condition names)
      let right := p.infos.map (shift width)
      let names := if kind.natural then commonNames infos right else names
      let shared ← names.mapM (sharedPair infos right)
      let right := right.map (markShared names)
      let (infos, parts) ← arrange r scope plan (infos ++ right) (width + p.width) rest
      pure (infos, ⟨kind, p, condition, shared⟩ :: parts)

def equality (pair : Scope.Found × Scope.Found) : Term :=
  Expression.binary .equal pair.1.term pair.2.term

/-- Resolves the conditions of a join; they see all of its sources, and point at no place. -/
def joinStep (r : Resolver) (scope : Scope) (part : JoinPart) : Planner JoinStep := do
  let condition ← Expression.optional r { scope with pointing := false } part.condition
  pure ⟨part.kind, part.plan, part.shared.map equality ++ condition.toList⟩

/-- The rows of sources whose conditions are resolved, joined from left to right. -/
def joinedRows (steps : List JoinStep) (env : Env) : Run (List Stored) :=
  match steps with
  | [] => .ofList [[]]
  | first :: rest =>
      let start :=
        (first.plan.rows env).filterEval fun row => allHold first.conditions (env.push ⟨row, []⟩)
      runJoin env first.plan.width start rest

def totalWidth (parts : List JoinPart) : Nat :=
  total (parts.map (·.plan.width))

/-- Sources joined, as one source. -/
def join (r : Resolver) (scope : Scope) (plan : Joined → Planner SourcePlan)
    (sources : List Joined) : Planner SourcePlan := do
  let (infos, parts) ← arrange r scope plan [] 0 sources
  let steps ← parts.mapM (joinStep r { scope with levels := ⟨infos, []⟩ :: scope.levels })
  pure ⟨infos, totalWidth parts, joinedRows steps⟩

/-- A source to a depth of parentheses. -/
def resolve (r : Resolver) (scope : Scope) : Nat → Joined → Planner SourcePlan
  | 0, _ => Planner.refuse "parser stack overflow"
  | depth + 1, .mk _ source _ _ =>
      match source with
      | .table name asName => ofName r scope name asName
      | .call name args asName => ofCall r scope name args asName
      | .query q asName => do
          let plan ← Expression.innerQuery r scope q
          pure (ofQuery (asName.getD "") [] plan)
      | .group sources => join r scope (resolve r scope depth) sources

/-- How deep parentheses around sources may be. -/
def maxDepth : Nat := 100

/-- The sources of a query, their conditions not yet resolved. -/
def arranged (r : Resolver) (scope : Scope) (sources : List Joined) :
    Planner (List SourceInfo × List JoinPart) :=
  arrange r scope (resolve r scope maxDepth) [] 0 sources

end Source

end SqlUnits
