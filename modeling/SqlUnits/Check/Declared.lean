import SqlUnits.Access.Mapper
import SqlUnits.Check.Failure
import SqlUnits.Number.Natural
import SqlUnits.Unit.Syntax
/-!
Declared rows and values against the columns of a query. Fields take columns from left to right,
as many as their mappers say, and a column must widen to the type of the field that it is for.
-/

namespace SqlUnits

def untypedColumn (owner column : String) : ValidationError :=
  .shapeMismatch ("Cannot discover the type of column " ++ column ++ " in " ++ owner ++
    ": it has no declared type and the query returned no non-NULL value for it; declare the " ++
    "type or give samples that select a row")

namespace DeclaredRow

def countMismatch (row : String) (fields consumed columns : Nat) : ValidationError :=
  let consuming :=
    if consumed = fields then "" else " consuming " ++ toString consumed ++ " columns"
  .shapeMismatch ("Row type " ++ row ++ " has " ++ toString fields ++ " fields" ++ consuming ++
    ", but the query returns " ++ toString columns ++ " columns")

def checkMeta (row : String) (fields : List FieldDecl) (columns : List ColumnInfo) :
    Except ValidationError Unit :=
  match fields.find? fun f => f.type != .descriptor with
  | some field =>
      .error (.shapeMismatch ("Field " ++ field.name ++ " of metadata row " ++ row ++
        " must be meta, found " ++ field.type.name))
  | none =>
      if fields.length = columns.length then .ok ()
      else .error (countMismatch row fields.length fields.length columns.length)

/-- A field of a data row, and how many columns it takes. -/
structure Slot where
  name : String
  type : ValueType
  width : Nat

def slot (registry : Registry) (row : String) (field : FieldDecl) :
    Except ValidationError Slot :=
  match field.type with
  | .value type => do
      let mapper ← (registry.resolve type).mapError .ofAccess
      pure ⟨field.name, type, mapper.columns⟩
  | .descriptor =>
      .error (.shapeMismatch ("Field " ++ field.name ++ " of row " ++ row ++
        " holds column metadata, which only metadata rows can have"))

/-- Whether the type of a column is compared with that of its field. -/
def Slot.isCompared (s : Slot) : Bool :=
  s.width == 1 && !s.type.isCustom

def checkSlot (row : String) (s : Slot) (column : ColumnInfo) : Except ValidationError Unit :=
  match column.valueType with
  | none => .error (untypedColumn ("row " ++ row) column.name)
  | some found =>
      if found.widensTo s.type then .ok ()
      else
        .error (.shapeMismatch ("Field " ++ s.name ++ " of row " ++ row ++ " is " ++
          s.type.name ++ ", but column " ++ column.name ++ " is " ++ found.name))

/-- Compares the fields with the columns that they take. -/
def checkSlots (row : String) : List Slot → List ColumnInfo → Except ValidationError Unit
  | [], _ => .ok ()
  | s :: rest, columns => do
      match columns with
      | column :: _ => if s.isCompared then checkSlot row s column
      | [] => pure ()
      checkSlots row rest (columns.drop s.width)

def check (registry : Registry) (row : String) (fields : List FieldDecl) (isMeta : Bool)
    (columns : List ColumnInfo) : Except ValidationError Unit :=
  if isMeta then checkMeta row fields columns
  else do
    let slots ← fields.mapM (slot registry row)
    let consumed := total (slots.map (·.width))
    if consumed ≠ columns.length then
      throw (countMismatch row fields.length consumed columns.length)
    checkSlots row slots columns

end DeclaredRow

namespace DeclaredValue

/-- The type that a statement reads from the one value of each row. -/
def check (registry : Registry) (convention : Convention) (owner : String)
    (declared : Option ValueType) (columns : List ColumnInfo) :
    Except ValidationError ValueType := do
  let expected ← match declared with
    | some type => do pure (← (registry.resolve type).mapError .ofAccess).columns
    | none => pure 1
  let statement := convention.keyword ++ " statement in " ++ owner
  if columns.length ≠ expected then
    throw (.cardinality (statement ++ " reads " ++ toString expected ++
      " column(s), but the query returns " ++ toString columns.length))
  let label := (columns.head?.map (·.name)).getD ""
  let found := columns.head?.bind (·.valueType)
  match declared, found with
  | some type, some found =>
      if type.isCustom || found.widensTo type then pure type
      else
        throw (.shapeMismatch (statement ++ " requests " ++ type.name ++ ", but column " ++
          label ++ " is " ++ found.name))
  | some type, none => if type.isCustom then pure type else throw (untypedColumn owner label)
  | none, some found => pure found
  | none, none => throw (untypedColumn owner label)

end DeclaredValue

end SqlUnits
