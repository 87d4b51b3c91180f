import SqlUnits.Json.Basic
import SqlUnits.Value.Kind
/-!
Result columns as a database describes them.
-/

namespace SqlUnits

inductive Nullability where
  | yes
  | no
  | unknown
deriving DecidableEq

namespace Nullability

/-- What two observations of one column say together. -/
def merge : Nullability → Nullability → Nullability
  | yes, _ => yes
  | _, yes => yes
  | no, no => no
  | _, _ => unknown

def name : Nullability → String
  | yes => "yes"
  | no => "no"
  | unknown => "unknown"

def all : List Nullability := [yes, no, unknown]

def ofName? (s : String) : Option Nullability :=
  all.find? (·.name == s)

end Nullability

structure ColumnInfo where
  name : String
  /-- Absent when neither a declaration nor a value tells the type. -/
  valueType : Option ValueType := none
  nullable : Nullability := .unknown
  displaySize : Nat := 0
  precision : Nat := 0
  scale : Nat := 0
  /-- The declared type, for a column read straight from a table. -/
  sqlType : Option String := none
deriving DecidableEq

def ColumnInfo.typeName (column : ColumnInfo) : String :=
  match column.valueType with
  | some type => type.name
  | none => "unknown"

def ColumnInfo.toJson (column : ColumnInfo) : Json :=
  .objSome [
    ("name", some (.str column.name)),
    ("value_type", some (.opt (fun t => .str t.name) column.valueType)),
    ("nullable", some (.str column.nullable.name)),
    ("display_size", some (.nat column.displaySize)),
    ("precision", some (.nat column.precision)),
    ("scale", some (.nat column.scale)),
    ("sql_type", column.sqlType.map .str)]

/-- What a metadata row is told about a column. -/
structure MetaColumn where
  nullable : Nullability := .unknown
  displaySize : Nat := 0
  precision : Nat := 0
  scale : Nat := 0
deriving DecidableEq

namespace MetaColumn

def ofColumn (column : ColumnInfo) : MetaColumn where
  nullable := column.nullable
  displaySize := column.displaySize
  precision := column.precision
  scale := column.scale

def isNotNull (column : MetaColumn) : Bool :=
  column.nullable == .no

def toJson (column : MetaColumn) : Json :=
  .obj [
    ("nullable", .str column.nullable.name),
    ("display_size", .nat column.displaySize),
    ("precision", .nat column.precision),
    ("scale", .nat column.scale)]

end MetaColumn

end SqlUnits
