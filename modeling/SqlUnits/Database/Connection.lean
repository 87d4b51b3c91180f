import SqlUnits.Database.Catalog
import SqlUnits.Database.Error
import SqlUnits.Database.Transaction
/-!
A connection: statements are prepared from text and then run. To prepare a statement changes
nothing; a run changes the contents, if at all, before it yields its first row.
-/

namespace SqlUnits

/-- A column of a prepared statement: its label, and its declared type if it is read straight from
a table. -/
structure DeclaredColumn where
  name : String
  declType : Option String
deriving DecidableEq

structure Connection where
  contents : Contents := ⟨{}, []⟩
  functions : List Registered := []
  foreignKeys : Bool := true
  lastId : Int64 := 0
  /-- Rows that the last change touched, and all changes together. -/
  changes : Nat := 0
  totalChanges : Nat := 0
  now : Moment := ⟨0⟩
  /-- The calls of registered functions so far. -/
  calls : List FunctionCall := []

/-- What a prepared statement does when it runs. -/
inductive Action where
  /-- The text holds no statement. -/
  | nothing
  | query (plan : QueryPlan)
  | change (plan : ChangePlan)
  | schema (effect : Catalog.Effect)
  | transaction (step : Sql.TransactionStep)
  | enforceKeys (on : Bool)
  | maintenance
  /-- Rows that describe a statement, which itself does not run. -/
  | described (rows : List (List Stored))

structure Statement where
  columns : List DeclaredColumn := []
  paramCount : Nat := 0
  action : Action := .nothing
  /-- The text behind the statement. -/
  rest : Text := []

/-- A run of a statement: its rows, and the connection once the run has begun. -/
structure Execution where
  rows : Run (List Stored)
  connection : Connection

namespace Connection

def database (c : Connection) : Database :=
  c.contents.database

def autocommit (c : Connection) : Bool :=
  c.contents.autocommit

def facts (c : Connection) : Facts :=
  ⟨c.now, c.lastId, c.changes, c.totalChanges⟩

def env (c : Connection) (params : List Stored) : Env :=
  { params := params.map Stored.bindable, database := c.database, facts := c.facts }

def withDatabase (c : Connection) (db : Database) : Connection :=
  { c with contents := { c.contents with database := db } }

def scope (c : Connection) : Scope where
  database := c.database
  functions := c.functions

/-- Remembers calls. -/
def logged (c : Connection) (calls : List FunctionCall) : Connection :=
  { c with calls := c.calls ++ calls }

end Connection

namespace Statement

/-- Values for the placeholders, of which all but one are missing; they are counted from one. -/
def valuesWith (s : Statement) (index : Nat) (v : Stored) : Except DriverError (List Stored) :=
  if 1 ≤ index ∧ index ≤ s.paramCount then
    .ok ((List.replicate s.paramCount .null).set (index - 1) v)
  else .error (.failure "column index out of range")

def label (name : String) : DeclaredColumn := ⟨name, none⟩

def programColumns : List DeclaredColumn :=
  ["addr", "opcode", "p1", "p2", "p3", "p4", "p5", "comment"].map label

def planColumns : List DeclaredColumn :=
  ["id", "parent", "notused", "detail"].map label

def programStep (address : Nat) (name : String) (p1 p2 : Nat) : List Stored :=
  [.ofInt address, .text name, .ofInt p1, .ofInt p2, .ofInt 0, .null, .ofInt 0, .null]

/-- The outline of the program of any statement. -/
def programRows : List (List Stored) :=
  [programStep 0 "Init" 0 4, programStep 1 "Integer" 1 1, programStep 2 "ResultRow" 1 1,
    programStep 3 "Halt" 0 0, programStep 4 "Goto" 0 1]

def planRows : List (List Stored) :=
  [[.ofInt 1, .ofInt 0, .ofInt 0, .text "SCAN CONSTANT ROW"]]

def ofColumns (columns : List ResultInfo) : List DeclaredColumn :=
  columns.map fun c => ⟨c.name, c.declType⟩

/-- Runs a resolution from nothing. -/
def planned (p : Planner α) : Except Sql.Problem α :=
  (·.1) <$> p.run []

def isOn (text : String) : Bool :=
  ["1", "on", "yes", "true"].any (Text.sameLetters · text)

def pragma (c : Connection) (name : String) (argument : Option String) :
    List DeclaredColumn × Action :=
  match Text.lowerString name, argument with
  | "table_info", some table =>
      (Source.columnFactNames.map fun (n, _) => label n,
        .described (Source.columnFacts c.database table))
  | "foreign_keys", none => ([label "foreign_keys"], .described [[.ofBool c.foreignKeys]])
  | "foreign_keys", some value => ([], .enforceKeys (isOn value))
  | _, _ => ([], .maintenance)

def resolve (c : Connection) (s : Sql.Statement) :
    Except Sql.Problem (List DeclaredColumn × Action) := do
  let r := Resolver.standard
  match s with
  | .query q => do
      let plan ← planned (r.query c.scope q)
      pure (ofColumns plan.columns, .query plan)
  | .change change => do
      let plan ← planned (Change.resolve r c.scope c.foreignKeys change)
      pure (ofColumns plan.columns, .change plan)
  | .schema change => do
      let effect ← planned (Catalog.resolve r c.scope c.foreignKeys change)
      pure ([], .schema effect)
  | .transaction step => pure ([], .transaction step)
  | .pragma name argument => pure (pragma c name argument)
  | .maintenance => pure ([], .maintenance)

def ofParsed (c : Connection) (p : Sql.Parsed) : Except Sql.Problem Statement := do
  let (columns, action) ← resolve c p.statement
  let (columns, action) :=
    match p.explain with
    | none => (columns, action)
    | some .program => (programColumns, .described programRows)
    | some .plan => (planColumns, .described planRows)
  pure { columns, paramCount := p.paramCount, action, rest := p.rest }

def problem (sql : String) (p : Sql.Problem) : DriverError :=
  match p.offset with
  | some offset => .input p.message sql offset
  | none => .failure p.message

end Statement

namespace Connection

/-- Prepares the first statement of a text. -/
def prepare (c : Connection) (sql : String) : Except DriverError Statement :=
  match Sql.Parsed.ofText sql.toList with
  | .error p => .error (Statement.problem sql p)
  | .ok none => .ok {}
  | .ok (some parsed) => (Statement.ofParsed c parsed).mapError (Statement.problem sql)

/-- A change that a rule has stopped. -/
def stopped (c : Connection) (p : Progress) (r : Refusal) : Connection :=
  let c := { c with changes := 0, lastId := p.lastId }
  match r.conflict with
  | .fail => { c.withDatabase p.database with changes := p.changes }
  | .rollback =>
      match c.contents.rollback with
      | .ok contents => { c with contents }
      | .error _ => c
  | _ => c

def runChange (c : Connection) (plan : ChangePlan) (params : List Stored) : Execution :=
  let start : Progress := { database := c.database, lastId := c.lastId }
  let (result, p) := ((plan.run (c.env params)).run).run start
  let calls := p.calls.map Event.called
  match result with
  | .ok _ =>
      ⟨⟨calls ++ p.returned.map .item, none⟩,
        { c.withDatabase p.database with
          lastId := p.lastId
          changes := p.changes
          totalChanges := c.totalChanges + p.changes }⟩
  | .error r => ⟨⟨calls, some r.message⟩, stopped c p r⟩

def runSchema (c : Connection) (effect : Catalog.Effect) (params : List Stored) : Execution :=
  let (result, calls) := (effect (c.env params)).outcome
  match result with
  | .ok db => ⟨⟨calls.map .called, none⟩, c.withDatabase db⟩
  | .error m => ⟨⟨calls.map .called, some m⟩, c⟩

/-- Runs a prepared statement with values for its placeholders. -/
def run (c : Connection) (s : Statement) (params : List Stored) : Execution :=
  match s.action with
  | .nothing => ⟨.failed "not an error", c⟩
  | .query plan => ⟨plan.run (c.env params), c⟩
  | .change plan => c.runChange plan params
  | .schema effect => c.runSchema effect params
  | .transaction step =>
      match c.contents.step step with
      | .ok contents => ⟨.empty, { c with contents }⟩
      | .error m => ⟨.failed m, c⟩
  | .enforceKeys on => ⟨.empty, { c with foreignKeys := on }⟩
  | .maintenance => ⟨.empty, c⟩
  | .described rows => ⟨.ofList rows, c⟩

/-- Takes one step of a run. -/
def stepOnce (e : Execution) : Except DriverError Unit × Connection :=
  let (result, calls) := (e.rows.first?).outcome
  (match result with
    | .ok _ => .ok ()
    | .error m => .error (.failure m), e.connection.logged calls)

/-- Runs the statements of a text one after the other, each for one step. -/
def batchFrom : Nat → Connection → Text → Except DriverError Unit × Connection
  | 0, c, _ => (.ok (), c)
  | fuel + 1, c, sql =>
      if sql.isEmpty then (.ok (), c)
      else
        match c.prepare (String.ofList sql) with
        | .error e => (.error e, c)
        | .ok s =>
            match s.action with
            | .nothing => (.ok (), c)
            | _ =>
                match stepOnce (c.run s []) with
                | (.ok _, c) => batchFrom fuel c s.rest
                | (.error e, c) => (.error e, c)

def executeBatch (c : Connection) (sql : String) : Except DriverError Unit × Connection :=
  batchFrom (sql.length + 1) c sql.toList

end Connection

end SqlUnits
