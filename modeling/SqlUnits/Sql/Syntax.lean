import SqlUnits.Database.Stored
/-!
The syntax of the database's statements. Names and calls keep their byte offset, because errors
about them point at it; a result column keeps its text, because that is its label.
-/

namespace SqlUnits.Sql

inductive UnaryOp where
  | negate
  | plus
  | bitNot
  | not
deriving DecidableEq

inductive BinaryOp where
  | or
  | and
  | equal
  | notEqual
  | less
  | lessEqual
  | greater
  | greaterEqual
  | is
  | isNot
  | bitAnd
  | bitOr
  | shiftLeft
  | shiftRight
  | add
  | subtract
  | multiply
  | divide
  | remainder
  | concat
deriving DecidableEq

inductive SetOp where
  | union
  | unionAll
  | intersect
  | except
deriving DecidableEq

def SetOp.name : SetOp → String
  | union => "UNION"
  | unionAll => "UNION ALL"
  | intersect => "INTERSECT"
  | except => "EXCEPT"

/-- How a table joins the ones before it. -/
structure JoinKind where
  natural : Bool := false
  left : Bool := false
  right : Bool := false
  /-- A comma stands between the two. -/
  comma : Bool := false
deriving DecidableEq

/-- A table name, with the schema it is written with. -/
structure TableName where
  schema : Option String
  name : String
deriving DecidableEq

/-- A name as messages show it. -/
def TableName.display (t : TableName) : String :=
  match t.schema with
  | some schema => schema ++ "." ++ t.name
  | none => t.name

mutual

inductive Expr : Type where
  | literal (value : Stored)
  | param (index : Nat)
  /-- A name with its qualifiers in front; `quoted` when it is one name in double quotes. -/
  | column (parts : List String) (quoted : Bool) (offset : Nat)
  | unary (op : UnaryOp) (e : Expr)
  | binary (op : BinaryOp) (left right : Expr)
  | between (negated : Bool) (e low high : Expr)
  | matching (operator : String) (offset : Nat) (negated : Bool) (e pattern : Expr)
      (escape : Option Expr)
  | isNull (negated : Bool) (e : Expr)
  | collate (e : Expr) (name : String)
  | cast (e : Expr) (type : String)
  | choice (operand : Option Expr) (branches : List (Expr × Expr)) (otherwise : Option Expr)
  | call (name : String) (offset : Nat) (distinct star : Bool) (args : List Expr)
      (filter : Option Expr)
  | inList (negated : Bool) (e : Expr) (items : List Expr)
  | inQuery (negated : Bool) (e : Expr) (query : Select)
  | exists (query : Select)
  | scalar (query : Select)
  | row (items : List Expr)

/-- A query: common tables, a first core, further cores with their operators, order and limit. -/
inductive Select : Type where
  | mk (common : List CommonTable) (first : Core) (others : List (SetOp × Core))
      (order : List OrderTerm) (limit offset : Option Expr)

inductive CommonTable : Type where
  | mk (name : String) (columns : List String) (query : Select)

inductive OrderTerm : Type where
  | mk (e : Expr) (descending : Bool) (nullsFirst : Option Bool)

inductive Core : Type where
  | select (distinct : Bool) (columns : List ResultColumn) (sources : List Joined)
      (condition : Option Expr) (groups : List Expr) (having : Option Expr)
  | values (rows : List (List Expr))

inductive ResultColumn : Type where
  | expr (e : Expr) (asName : Option String) (text : String)
  | all
  | allOf (table : String)

inductive Joined : Type where
  | mk (kind : JoinKind) (source : Source) (condition : Option Expr) (shared : List String)

inductive Source : Type where
  | table (name : TableName) (asName : Option String)
  | call (name : String) (args : List Expr) (asName : Option String)
  | query (query : Select) (asName : Option String)
  | group (sources : List Joined)

end

instance : Inhabited Expr := ⟨.literal .null⟩

instance : Inhabited Select := ⟨.mk [] (.values []) [] [] none none⟩

/-- What happens to a row that breaks a constraint. -/
inductive Conflict where
  | abort
  | rollback
  | fail
  | ignore
  | replace
deriving DecidableEq

inductive ColumnRule where
  | primaryKey (descending autoincrement : Bool)
  | notNull (conflict : Conflict)
  | unique
  | default (e : Expr)
  | check (e : Expr) (text : String)
  | references (table : String) (columns : List String)
  | collate (name : String)

structure ColumnDef where
  name : String
  type : String
  rules : List ColumnRule

inductive TableRule where
  | primaryKey (columns : List (String × Nat))
  | unique (columns : List (String × Nat))
  | check (e : Expr) (text : String)
  | foreignKey (columns : List String) (table : String) (parents : List String)

/-- What an update assigns: columns, and the value or the row of values for them. -/
structure Assignment where
  columns : List String
  value : Expr

inductive UpsertAction where
  | nothing
  | update (assignments : List Assignment) (condition : Option Expr)

structure Upsert where
  columns : List String
  action : UpsertAction

inductive InsertSource where
  | query (query : Select)
  | defaults

inductive Change where
  | insert (common : List CommonTable) (conflict : Conflict) (table : TableName)
      (columns : List String) (source : InsertSource) (upsert : Option Upsert)
      (returning : List ResultColumn)
  | update (common : List CommonTable) (conflict : Conflict) (table : TableName)
      (asName : Option String) (assignments : List Assignment) (sources : List Joined)
      (condition : Option Expr) (returning : List ResultColumn)
  | delete (common : List CommonTable) (table : TableName) (asName : Option String)
      (condition : Option Expr) (returning : List ResultColumn)

inductive SchemaChange where
  | createTable (ifNotExists : Bool) (table : TableName) (offset : Nat) (columns : List ColumnDef)
      (rules : List TableRule) (withoutRowid : Bool) (text : String)
  | createTableAs (ifNotExists : Bool) (table : TableName) (offset : Nat) (query : Select)
      (text : String)
  | createView (ifNotExists : Bool) (view : TableName) (offset : Nat) (columns : List String)
      (query : Select) (text : String)
  | createIndex (unique ifNotExists : Bool) (index : TableName) (table : String)
      (columns : List (String × Nat)) (text : String)
  | dropTable (ifExists : Bool) (table : TableName)
  | dropView (ifExists : Bool) (view : TableName)
  | dropIndex (ifExists : Bool) (index : TableName)
  | addColumn (table : TableName) (column : ColumnDef)
  | renameTable (table : TableName) (name : String)

inductive TransactionStep where
  | begin
  | commit
  | rollback
  | savepoint (name : String)
  | release (name : String)
  | rollbackTo (name : String)

/-- How a statement is explained. -/
inductive Explain where
  | program
  | plan
deriving DecidableEq

inductive Statement where
  | query (query : Select)
  | change (change : Change)
  | schema (change : SchemaChange)
  | transaction (step : TransactionStep)
  | pragma (name : String) (argument : Option String)
  /-- A statement that leaves no trace here, such as a request to analyse tables. -/
  | maintenance

end SqlUnits.Sql
