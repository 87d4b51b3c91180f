import SqlUnits.Database.Affinity
import SqlUnits.Sql.Syntax
import SqlUnits.Text.Ascii
/-!
Tables, views and indexes, and the database that holds them. Names are equal up to the case of
letters.
-/

namespace SqlUnits

structure TableColumn where
  name : String
  declType : Option String := none
  affinity : Affinity := .blob
  collation : Collation := .binary
  /-- What happens to a missing value; `none` where one is allowed. -/
  notNull : Option Sql.Conflict := none
  default : Option Sql.Expr := none
  /-- The place in the primary key, counted from one; zero outside it. -/
  keyPart : Nat := 0

/-- Columns that no two rows share. -/
structure UniqueRule where
  columns : List Nat
  /-- The index that keeps the rule, if it has a name of its own. -/
  index : Option String := none

structure ForeignKey where
  columns : List Nat
  parent : String
  parentColumns : List String

structure CheckRule where
  condition : Sql.Expr
  text : String

structure Row where
  id : Int64
  values : List Stored
deriving DecidableEq

structure Table where
  name : String
  columns : List TableColumn
  /-- The column that is the row number, if one is. -/
  rowidColumn : Option Nat := none
  withoutRowid : Bool := false
  /-- Row numbers are never used again. -/
  increasing : Bool := false
  lastId : Int64 := 0
  /-- In the order in which a new row is held against them. -/
  unique : List UniqueRule := []
  foreignKeys : List ForeignKey := []
  checks : List CheckRule := []
  /-- In order of row numbers. -/
  rows : List Row := []
  text : String := ""

structure View where
  name : String
  columns : List String
  query : Sql.Select
  text : String := ""

/-- An index by name; only what a unique one forbids matters. -/
structure IndexEntry where
  name : String
  table : String
  text : String := ""

structure Database where
  tables : List Table := []
  views : List View := []
  indexes : List IndexEntry := []

namespace Table

def columnIndex? (table : Table) (name : String) : Option Nat :=
  table.columns.findIdx? fun c => Text.sameLetters c.name name

/-- Names of the row number where no column hides them. -/
def isRowidName (name : String) : Bool :=
  ["rowid", "oid", "_rowid_"].any (Text.sameLetters · name)

/-- Puts a row among the others in order of row numbers. -/
def insertRow (row : Row) : List Row → List Row
  | [] => [row]
  | r :: rest =>
      if row.id < r.id then row :: r :: rest else r :: insertRow row rest

/-- The row number that follows the greatest one. -/
def nextId (table : Table) : Int64 :=
  let last := (table.rows.getLast?.map (·.id)).getD 0
  let last := if table.increasing && last < table.lastId then table.lastId else last
  if table.rows.isEmpty && !table.increasing then 1 else last + 1

def addRow (table : Table) (row : Row) : Table :=
  { table with
    rows := insertRow row table.rows
    lastId := if table.lastId < row.id then row.id else table.lastId }

def removeRow (table : Table) (id : Int64) : Table :=
  { table with rows := table.rows.filter (·.id != id) }

end Table

namespace Database

def table? (db : Database) (name : String) : Option Table :=
  db.tables.find? fun t => Text.sameLetters t.name name

def view? (db : Database) (name : String) : Option View :=
  db.views.find? fun v => Text.sameLetters v.name name

def index? (db : Database) (name : String) : Option IndexEntry :=
  db.indexes.find? fun i => Text.sameLetters i.name name

/-- Replaces the table of the same name. -/
def setTable (db : Database) (table : Table) : Database :=
  { db with
    tables := db.tables.map fun t => if Text.sameLetters t.name table.name then table else t }

def addTable (db : Database) (table : Table) : Database :=
  { db with tables := db.tables ++ [table] }

def dropTable (db : Database) (name : String) : Database :=
  { db with
    tables := db.tables.filter fun t => !Text.sameLetters t.name name
    indexes := db.indexes.filter fun i => !Text.sameLetters i.table name }

def dropView (db : Database) (name : String) : Database :=
  { db with views := db.views.filter fun v => !Text.sameLetters v.name name }

/-- The only schema, or the ones that mean it or hold nothing. -/
def isSchemaName (name : String) : Bool :=
  ["main", "temp"].any (Text.sameLetters · name)

def isMainSchema (schema : Option String) : Bool :=
  schema.all (Text.sameLetters · "main")

end Database

end SqlUnits
