import SqlUnits.Database.Connection
import SqlUnits.Number.Integer
import SqlUnits.Number.Natural
import SqlUnits.Shape.Column
import SqlUnits.Text.Blank
/-!
Describing a result column from its declared type and, where there is none, from a value of it.
-/

namespace SqlUnits

def splitCommas : Text → Text → List Text
  | part, [] => [part.reverse]
  | part, ',' :: rest => part.reverse :: splitCommas [] rest
  | part, c :: rest => splitCommas (c :: part) rest

/-- The type that a declaration stands for, by the words it contains. -/
def typeOfDecl (decl : String) : Option ValueType :=
  let base := Text.trim ((decl.toList.map Text.upper).takeWhile (· ≠ '('))
  let has (word : String) : Bool := Text.contains base word.toList
  let is (word : String) : Bool := base == word.toList
  if has "BOOL" then some .bool
  else if is "INTEGER" || is "BIGINT" || is "INT8" || is "UNSIGNED BIG INT" then some .long
  else if has "INT" then some .int
  else if has "CHAR" || has "CLOB" || has "TEXT" then some .string
  else if has "BLOB" then some .bytes
  else if has "REAL" || has "FLOA" || has "DOUB" || has "NUMERIC" || has "DECIMAL" then
    some .double
  else if has "DATETIME" || has "TIMESTAMP" then some .timestamp
  else if has "DATE" then some .date
  else none

/-- The type of a value, by its storage class. -/
def Stored.valueType? : Stored → Option ValueType
  | .null => none
  | .integer _ => some .long
  | .real _ => some .double
  | .text _ => some .string
  | .brokenText _ => some .string
  | .blob _ => some .bytes

/-- The length, and the scale if there is one, between the parentheses of a declaration. -/
def sizeOfDecl (decl : String) : Option (Nat × Option Nat) := do
  let (_, rest) ← Text.splitOnce? ['('] decl.toList
  let (inside, _) ← Text.splitOnce? [')'] rest
  let size (cs : Text) : Option Nat := Text.toNatBelow? (twoPow 32) (Text.trim cs)
  match splitCommas [] inside with
  | [] => none
  | [length] => do pure (← size length, none)
  | length :: scale :: _ => do pure (← size length, some (← size scale))

/-- The display size and the precision of a type that is declared without a size. -/
def defaultSize : ValueType → Nat × Nat
  | .bool => (1, 1)
  | .int => (11, 10)
  | .long => (20, 19)
  | .double => (24, 15)
  | .date => (10, 10)
  | .timestamp => (19, 19)
  | _ => (0, 0)

/-- The room that digits take with a sign and a point. Sizes have 32 bits, and a sum that needs more
begins again at zero. -/
def displaySizeOf (precision : Nat) : Nat :=
  (precision + 2) % twoPow 32

def describeColumn (column : DeclaredColumn) (sample : Option Stored) : ColumnInfo :=
  let type := (column.declType.bind typeOfDecl) <|> (sample.bind Stored.valueType?)
  let (displaySize, precision, scale) :=
    match column.declType.bind sizeOfDecl with
    | some (precision, some scale) => (displaySizeOf precision, precision, scale)
    | some (length, none) => (length, length, 0)
    | none =>
        let (display, precision) := (type.map defaultSize).getD (0, 0)
        (display, precision, 0)
  { name := column.name, valueType := type, displaySize, precision, scale,
    sqlType := column.declType }

/-- Describes every column of a result, with the values of its first row. -/
def describeColumns (columns : List DeclaredColumn) (row : Option (List Stored)) :
    List ColumnInfo :=
  columns.zipIdx.map fun (column, index) =>
    describeColumn column (row.bind fun values => values[index]?)

end SqlUnits
