import SqlUnits.Database.Function
import SqlUnits.Database.Run
import SqlUnits.Sql.Statement
/-!
Names in a query: the sources of each level and their columns. A name means the column of the
innermost level that has one; where a level has two, it is ambiguous.
-/

namespace SqlUnits

/-- What a statement sees while it runs: for every level, innermost first, the current row. -/
structure RowFrame where
  values : List Stored
  aggregates : List Stored := []

structure Env where
  params : List Stored
  database : Database
  facts : Facts
  frames : List RowFrame := []

namespace Env

def value (env : Env) (level index : Nat) : Stored :=
  match env.frames[level]? with
  | some frame => (frame.values[index]?).getD .null
  | none => .null

def aggregate (env : Env) (index : Nat) : Stored :=
  match env.frames with
  | frame :: _ => (frame.aggregates[index]?).getD .null
  | [] => .null

def push (env : Env) (frame : RowFrame) : Env :=
  { env with frames := frame :: env.frames }

end Env

/-- An expression whose names are resolved. -/
structure Term where
  eval : Env → Eval Stored
  affinity : Option Affinity := none
  collation : Option Collation := none
  /-- Whether the collation was asked for. -/
  collated : Bool := false
  declType : Option String := none
  /-- The name of the column that the expression is, if it is one. -/
  label : Option String := none

structure SourceColumn where
  name : String
  affinity : Option Affinity
  collation : Collation
  declType : Option String
  /-- The same value stands in a source before this one, under the same name. -/
  shared : Bool := false

structure SourceInfo where
  name : String
  columns : List SourceColumn
  /-- Where the row number stands behind the columns, and what it is called as a result. -/
  rowid : Option (Nat × String) := none
  /-- The place of the first column in the row of the level. -/
  start : Nat := 0

structure Level where
  sources : List SourceInfo
  /-- Results by alias, which the clauses behind them may use. -/
  aliases : List (String × Sql.Expr) := []

/-- What an aggregate means where it stands. -/
inductive AggregateUse where
  | collected
  /-- The text in front of the function in the message. -/
  | misused (text : String)
deriving DecidableEq

/-- A function that was registered: its name and the number of its arguments. -/
structure Registered where
  name : String
  args : Nat
deriving DecidableEq

/-- What names and calls are resolved against. -/
structure Scope where
  database : Database
  functions : List Registered := []
  common : List Sql.CommonTable := []
  levels : List Level := []
  aggregates : AggregateUse := .misused "misuse of aggregate function "
  /-- Whether a failure points at the name or the call that causes it. -/
  pointing : Bool := true

structure AggregateCall where
  kind : AggregateKind
  distinct : Bool
  args : List Term
  filter : Option Term
  collation : Collation

/-- Resolution collects the aggregates of the query it is in. -/
abbrev Planner := StateT (List AggregateCall) (Except Sql.Problem)

namespace Planner

def refuse (message : String) (offset : Option Nat := none) : Planner α :=
  throw ⟨message, offset⟩

/-- Adds an aggregate, and returns its place. -/
def collect (call : AggregateCall) : Planner Nat := do
  let calls ← get
  set (calls ++ [call])
  pure calls.length

/-- Resolves a part that collects for itself. -/
def separately (p : Planner α) : Planner (α × List AggregateCall) := do
  match p.run [] with
  | .ok r => pure r
  | .error e => throw e

end Planner

namespace Scope

def place (scope : Scope) (offset : Nat) : Option Nat :=
  if scope.pointing then some offset else none

/-- The scope of lists and inner queries, in which failures always point. -/
def inList (scope : Scope) : Scope :=
  { scope with pointing := true }

/-- A column that was found: its level, its place, and what is known about it. -/
structure Found where
  level : Nat
  index : Nat
  column : SourceColumn

def Found.term (f : Found) : Term where
  eval := fun env => pure (env.value f.level f.index)
  affinity := f.column.affinity
  collation := some f.column.collation
  declType := f.column.declType
  label := some f.column.name

def rowidColumn (name : String) : SourceColumn :=
  ⟨name, some .integer, .binary, some "INTEGER", false⟩

/-- The columns of a source that a name can mean. -/
def columnsNamed (level : Nat) (name : String) (qualified : Bool) (s : SourceInfo) : List Found :=
  s.columns.zipIdx.filterMap fun (c, i) =>
    if Text.sameLetters c.name name && (qualified || !c.shared) then some ⟨level, s.start + i, c⟩
    else none

/-- The sources that a qualifier can mean. -/
def sourcesNamed (qualifier : List String) (sources : List SourceInfo) : List SourceInfo :=
  match qualifier.reverse with
  | [] => sources
  | [table] => sources.filter fun s => Text.sameLetters s.name table
  | table :: schema :: _ =>
      if Text.sameLetters schema "main" then
        sources.filter fun s => Text.sameLetters s.name table
      else []

/-- All that a name can mean in one level. -/
def inLevel (level : Nat) (l : Level) (qualifier : List String) (name : String) : List Found :=
  let sources := sourcesNamed qualifier l.sources
  let found := sources.flatMap (columnsNamed level name (!qualifier.isEmpty))
  if !found.isEmpty then found
  else if Table.isRowidName name then
    match sources with
    | [s] =>
        match s.rowid with
        | some (i, label) => [⟨level, s.start + i, rowidColumn label⟩]
        | none => []
    | _ => []
  else []

inductive Meaning where
  | column (f : Found)
  | asName (level : Nat) (e : Sql.Expr)
  | ambiguous
  | unknown

def aliased? (qualifier : List String) (name : String) (l : Level) : Option Sql.Expr :=
  if qualifier.isEmpty then
    (l.aliases.find? fun a => Text.sameLetters a.1 name).map (·.2)
  else none

def meaningFrom (qualifier : List String) (name : String) (level : Nat) : List Level → Meaning
  | [] => .unknown
  | l :: rest =>
      match inLevel level l qualifier name with
      | [f] => .column f
      | _ :: _ :: _ => .ambiguous
      | [] =>
          match aliased? qualifier name l with
          | some e => .asName level e
          | none => meaningFrom qualifier name (level + 1) rest

/-- What a name with its qualifiers means. -/
def meaning (scope : Scope) (parts : List String) : Meaning :=
  match parts.reverse with
  | [] => .unknown
  | name :: qualifier => meaningFrom qualifier.reverse name 0 scope.levels

end Scope

end SqlUnits
