import SqlUnits.Access.Dialect
import SqlUnits.Access.Nullability
import SqlUnits.Access.QueryPiece
import SqlUnits.Access.RowFactory
import SqlUnits.Database.Connection
import SqlUnits.Query.Parsed
/-!
Access to data: statements are run on one connection and their results mapped. Every statement is
released when its operation ends, however it ends, and a transaction that fails leaves the
contents as it found them.
-/

namespace SqlUnits

/-- Statements that are still open, in the order in which they were prepared. -/
structure StatementTracker where
  statements : List Statement := []

namespace StatementTracker

def openCount (tracker : StatementTracker) : Nat :=
  tracker.statements.length

def track (tracker : StatementTracker) (s : Statement) : StatementTracker :=
  ⟨tracker.statements ++ [s]⟩

/-- Closes the open statement at an index; there may be none. -/
def release (tracker : StatementTracker) (index : Nat) : StatementTracker :=
  ⟨tracker.statements.eraseIdx index⟩

end StatementTracker

structure DataContext where
  registry : Registry
  dialect : Dialect := .sqlite
  /-- Whether row types must take all columns of a result. -/
  checkRowTypes : Bool := true
  factories : FactoryCache := {}
  connection : Connection
  /-- How many transactions are open, one inside the other. -/
  savepoints : Nat := 0
  tracker : StatementTracker := {}

/-- An operation on a context. What it has done stays done when it fails. -/
abbrev Access := ExceptT AccessError (StateM DataContext)

/-- A statement with the values of its placeholders. -/
structure BoundStatement where
  statement : Statement
  values : List Stored

/-- The rows that were read, and whether there were more. -/
structure Fetched (α : Type) where
  rows : List α
  more : Bool

/-- What a callback has made of the rows it was given, and how that ended. -/
structure Visit (σ : Type) where
  state : σ
  outcome : Except AccessError Nat

namespace Run

def failureOr (failure : Option String) (a : α) : Except AccessError α :=
  match failure with
  | some m => .error (.database (.failure m))
  | none => .ok a

def collectEvents (map : β → Except AccessError α) (failure : Option String) :
    Option Nat → List (Event β) → Except AccessError (Fetched α) × List FunctionCall
  | _, [] => (failureOr failure ⟨[], false⟩, [])
  | limit, .called c :: rest =>
      let (fetched, calls) := collectEvents map failure limit rest
      (fetched, c :: calls)
  | some 0, .item _ :: _ => (.ok ⟨[], true⟩, [])
  | limit, .item b :: rest =>
      match map b with
      | .error e => (.error e, [])
      | .ok a =>
          let (fetched, calls) := collectEvents map failure (limit.map (· - 1)) rest
          (fetched.map fun f => { f with rows := a :: f.rows }, calls)

/-- Maps the rows of a run up to a limit. A row beyond it is asked for, but not mapped; with a row
that cannot be mapped the run ends. -/
def collect (run : Run β) (limit : Option Nat) (map : β → Except AccessError α) :
    Except AccessError (Fetched α) × List FunctionCall :=
  collectEvents map run.failure limit run.events

def visitEvents (map : β → Except AccessError α) (each : α → σ → Except AccessError Unit × σ)
    (failure : Option String) : σ → Nat → List (Event β) → Visit σ × List FunctionCall
  | s, count, [] => (⟨s, failureOr failure count⟩, [])
  | s, count, .called c :: rest =>
      let (visit, calls) := visitEvents map each failure s count rest
      (visit, c :: calls)
  | s, count, .item b :: rest =>
      match map b with
      | .error e => (⟨s, .error e⟩, [])
      | .ok a =>
          match each a s with
          | (.error e, s) => (⟨s, .error e⟩, [])
          | (.ok _, s) => visitEvents map each failure s (count + 1) rest

/-- Gives the mapped rows of a run to a callback, one by one, until it fails. -/
def visit (run : Run β) (map : β → Except AccessError α)
    (each : α → σ → Except AccessError Unit × σ) (start : σ) : Visit σ × List FunctionCall :=
  visitEvents map each run.failure start 0 run.events

end Run

namespace DataContext

def lift (result : Except AccessError α) : Access α :=
  ExceptT.mk (pure result)

/-- How an operation ends; to ask for that does not fail. -/
def attempt (operation : Access α) : Access (Except AccessError α) :=
  ExceptT.mk (Except.ok <$> operation.run)

/-- Values for all placeholders of a statement, each written by the mapper of its type. -/
def bound (registry : Registry) (s : Statement) (params : List Parameter) :
    Except AccessError BoundStatement :=
  if s.paramCount ≠ params.length then
    .error (.configuration (.placeholderCount s.paramCount params.length))
  else do
    let values ← (params.zipIdx 1).mapM fun (p, index) => do
      (← registry.resolve p.type).write index p.value
    pure ⟨s, values⟩

/-- Uses a prepared statement, which counts as open until then. -/
def withStatement (query : QueryPiece) (use : BoundStatement → Access α) : Access α := do
  let context ← get
  let s ← lift ((context.connection.prepare query.sql).mapError .database)
  let index := context.tracker.openCount
  modify fun c => { c with tracker := c.tracker.track s }
  let result ← attempt do
    let s ← lift (bound context.registry s query.params)
    use s
  modify fun c => { c with tracker := c.tracker.release index }
  lift result

/-- Runs a statement, and reads from the run what there is to read. -/
def runStatement (s : BoundStatement) (read : Run (List Stored) → α × List FunctionCall) :
    Access α := do
  let context ← get
  let execution := context.connection.run s.statement s.values
  let (result, calls) := read execution.rows
  set { context with connection := execution.connection.logged calls }
  pure result

def tryRun (s : BoundStatement)
    (read : Run (List Stored) → Except AccessError α × List FunctionCall) : Access α := do
  lift (← runStatement s read)

def factory (row : RowType α) (isMeta : Bool) : Access RowFactory := do
  let context ← get
  let (result, cache) := context.factories.request context.registry row isMeta
  set { context with factories := cache }
  lift result

def checkRowColumns (factory : RowFactory) (s : Statement) : Access Unit := do
  if (← get).checkRowTypes then lift (factory.checkColumns s.columns.length)

def fetchRows (row : RowType α) (query : QueryPiece) (limit : Option Nat) :
    Access (Fetched α) := do
  let factory ← factory row false
  withStatement query fun s => do
    checkRowColumns factory s.statement
    tryRun s fun run => run.collect limit (factory.fetch row)

def fetchValues (type : ValueType) (query : QueryPiece) (limit : Option Nat) :
    Access (Fetched Value) := do
  let mapper ← lift ((← get).registry.resolve type)
  withStatement query fun s => do
    let columns := s.statement.columns.length
    if columns ≠ mapper.columns then
      throw (.cardinality (.tooManyColumns columns type))
    tryRun s fun run => run.collect limit fun values => mapper.read values 0

/-- What was read, when that must be one thing at most. -/
def atMostOne (fetched : Fetched α) : Access (Option α) :=
  if fetched.more then throw (.cardinality .tooManyRows) else pure fetched.rows.head?

def exactlyOne (fetched : Fetched α) : Access α := do
  match ← atMostOne fetched with
  | some a => pure a
  | none => throw (.cardinality .noRows)

def singleRow (row : RowType α) (query : QueryPiece) : Access α := do
  exactlyOne (← fetchRows row query (some 1))

def optionalRow (row : RowType α) (query : QueryPiece) : Access (Option α) := do
  atMostOne (← fetchRows row query (some 1))

def multiRow (row : RowType α) (query : QueryPiece) : Access (List α) :=
  (·.rows) <$> fetchRows row query none

/-- Gives each row to a callback as soon as it is there. -/
def forEachRow (row : RowType α) (query : QueryPiece)
    (each : α → σ → Except AccessError Unit × σ) (start : σ) : Access (Visit σ) := do
  let factory ← factory row false
  withStatement query fun s => do
    checkRowColumns factory s.statement
    runStatement s fun run => run.visit (factory.fetch row) each start

/-- A row of the descriptions of the columns of a query. -/
def metaRow (row : RowType α) (query : QueryPiece) : Access α := do
  let factory ← factory row true
  withStatement query fun s => do
    checkRowColumns factory s.statement
    let context ← get
    let (described, connection) := context.connection.describe query.sql s.statement s.values
    set { context with connection }
    lift (factory.fetchMeta row (← lift (described.mapError .database)))

def converted (target : TargetType) (v : Value) : Access Value :=
  lift ((v.convert target).mapError fun e => .mapping (.conversion e))

def singleValue (type : ValueType) (target : TargetType) (query : QueryPiece) :
    Access Value := do
  converted target (← exactlyOne (← fetchValues type query (some 1)))

def optionalValue (type : ValueType) (target : TargetType) (query : QueryPiece) :
    Access (Option Value) := do
  match ← atMostOne (← fetchValues type query (some 1)) with
  | some v => some <$> converted target v
  | none => pure none

def columnValues (type : ValueType) (target : TargetType) (query : QueryPiece) :
    Access (List Value) := do
  (← fetchValues type query none).rows.mapM (converted target)

/-- Runs a statement that yields no rows. -/
def execute (s : BoundStatement) : Access Unit :=
  tryRun s fun run =>
    let (result, calls) := run.first?.outcome
    let result :=
      match result with
      | .ok none => .ok ()
      | .ok (some _) => .error (.database .unexpectedRows)
      | .error m => .error (.database (.failure m))
    (result, calls)

/-- Changes data, and tells how many rows were touched. -/
def executeUpdate (query : QueryPiece) : Access Nat := do
  withStatement query execute
  pure (← get).connection.changes

/-- Inserts a row, and tells the number it was given. -/
def executeInsertKey (query : QueryPiece) : Access Int64 := do
  withStatement query execute
  pure (← get).connection.lastId

/-- Runs a call escape to its end. -/
def executeCall (query : QueryPiece) : Access Unit := do
  let sql ← lift ((← get).dialect.callSql query.sql)
  withStatement ⟨sql, query.params⟩ fun s => do
    let _ ← tryRun s fun run => run.collect none fun _ => (.ok () : Except AccessError Unit)

def callProcedure (name : String) (params : List Parameter) : Access Unit :=
  executeCall ⟨Query.callForm name params.length, params⟩

/-- The first value of a row as a whole number. -/
def wholeNumber (columns : List DeclaredColumn) (row : List Stored) : Except AccessError Int64 :=
  match row.head? with
  | some (.integer n) => .ok n
  | some raw =>
      .error (.database (.columnType 0 ((columns.head?.map (·.name)).getD "") raw.className))
  | none => .error (.database (.columnIndex 0))

/-- Draws the next value of a sequence. -/
def nextId (sequence : String) : Access Int64 := do
  let sql := (← get).dialect.nextIdSql sequence
  withStatement ⟨sql, []⟩ fun s =>
    tryRun s fun run =>
      let (result, calls) := run.first?.outcome
      let result :=
        match result with
        | .ok (some row) => wholeNumber s.statement.columns row
        | .ok none => .error (.configuration (.emptySequence sequence))
        | .error m => .error (.database (.failure m))
      (result, calls)

def executeBatch (sql : String) : Access Unit := do
  let context ← get
  let (result, connection) := context.connection.executeBatch sql
  set { context with connection }
  lift (result.mapError .database)

def savepointName (depth : Nat) : String :=
  "sqlprobe_" ++ toString depth

/-- Opens a transaction, and returns how many are around it. -/
def enterTransaction : Access Nat := do
  let depth := (← get).savepoints
  executeBatch ("SAVEPOINT " ++ savepointName depth)
  modify fun c => { c with savepoints := depth + 1 }
  pure depth

/-- Closes a transaction with what was done in it, which is undone if it failed. -/
def leaveTransaction (depth : Nat) (result : Except AccessError α) : Access α := do
  let name := savepointName depth
  modify fun c => { c with savepoints := depth }
  match result with
  | .ok a =>
      executeBatch ("RELEASE " ++ name)
      pure a
  | .error e =>
      let _ ← attempt (executeBatch ("ROLLBACK TO " ++ name ++ "; RELEASE " ++ name))
      throw e

/-- Runs an operation inside a savepoint. -/
def transaction (body : Access α) : Access α := do
  let depth ← enterTransaction
  leaveTransaction depth (← attempt body)

def inspect (context : DataContext) : String :=
  let shared := inspectRecord "GlobalContext"
    [("registry", context.registry.inspect), ("dialect", Text.quoted context.dialect.name),
      ("check_row_types", toString context.checkRowTypes),
      ("builds", toString context.factories.builds)]
  inspectRecord "DataContext"
    [("global", shared), ("open_statements", toString context.tracker.openCount)]

end DataContext

end SqlUnits
