import SqlUnits.Edit.Basic
import SqlUnits.Json.Record
import SqlUnits.Shape.RowShape
import SqlUnits.Unit.Syntax
/-!
The typed artifact of a unit: parameter types, statements in normal form, and the field list of
every row type. Code is generated from it alone.
-/

namespace SqlUnits

structure TypedParam where
  name : String
  type : ValueType
deriving DecidableEq

structure TypedStatement where
  /-- The keyword of the convention. -/
  convention : String
  line : Nat
  sql : Option String := none
  /-- The parameter bound to each placeholder. -/
  args : List String := []
  row : Option String := none
  valueType : Option ValueType := none
  object : Option String := none
deriving DecidableEq

structure TypedMethod where
  name : String
  params : List TypedParam
  statements : List TypedStatement
deriving DecidableEq

structure TypedField where
  name : String
  type : FieldType
  nullable : Nullability := .unknown
deriving DecidableEq

structure TypedRow where
  name : String
  isMeta : Bool
  /-- Whether the field list is written in the source. -/
  declared : Bool
  fields : List TypedField
deriving DecidableEq

structure TypedUnit where
  unit : String
  source : String
  rows : List TypedRow
  methods : List TypedMethod
deriving DecidableEq

/-- An identifier from a column label: runs of letters and digits in lower case, joined by `_`. -/
def labelWords (gap : Bool) (acc : Text) : Text → Text
  | [] => acc.reverse
  | c :: rest =>
      if Text.isLetter c || Text.isDigit c then
        let acc := if gap && !acc.isEmpty then '_' :: acc else acc
        labelWords false (Text.lower c :: acc) rest
      else labelWords true acc rest

/-- The field name for the column at `index`, counted from zero. -/
def fieldName (label : String) (index : Nat) : String :=
  match labelWords false [] label.toList with
  | [] => "column" ++ toString (index + 1)
  | c :: rest => String.ofList (if Text.isDigit c then 'c' :: c :: rest else c :: rest)

def suffixed (name : String) (n : Nat) : String :=
  name ++ "_" ++ toString n

/-- The name itself, or the first of `name_2`, `name_3`, … that is not taken. -/
def freshName (taken : List String) (name : String) : String :=
  if !taken.contains name then name
  else
    match (List.range (taken.length + 1)).find? fun i => !taken.contains (suffixed name (i + 2)) with
    | some i => suffixed name (i + 2)
    | none => name

def fieldsFrom (isMeta : Bool) (taken : List String) (index : Nat) :
    List ColumnInfo → Option (List TypedField)
  | [] => some []
  | column :: rest => do
      let type ← if isMeta then some .descriptor else column.valueType.map .value
      let name := freshName taken (fieldName column.name index)
      let more ← fieldsFrom isMeta (name :: taken) (index + 1) rest
      pure (⟨name, type, column.nullable⟩ :: more)

/-- The field list of a bare row; none when a data column has no type. -/
def discoveredFields (shape : RowShape) : Option (List TypedField) :=
  fieldsFrom shape.isMeta [] 0 shape.columns

/-- A field list as a row declaration has it. -/
def renderFields (fields : List TypedField) : String :=
  "(" ++ String.intercalate ", " (fields.map fun f => f.name ++ ": " ++ f.type.name) ++ ")"

namespace TypedRow

def ofDeclared (name : String) (fields : List FieldDecl) (shape : Option RowShape) : TypedRow where
  name := name
  isMeta := fields.all (·.type == .descriptor)
  declared := true
  fields := fields.zipIdx.map fun (field, index) =>
    let column := shape.bind fun s => s.columns[index]?
    ⟨field.name, field.type, (column.map (·.nullable)).getD .unknown⟩

/-- The row of a declaration; a bare one has none until a statement populates it. -/
def ofDecl? (row : RowDecl) (shape : Option RowShape) : Option TypedRow :=
  match row.fields, shape with
  | some fields, shape => some (ofDeclared row.name.name fields shape)
  | none, some shape =>
      (discoveredFields shape).map fun fields => ⟨row.name.name, shape.isMeta, false, fields⟩
  | none, none => none

end TypedRow

namespace TypedUnit

def build (unit : SourceUnit) (methods : List TypedMethod) (shapes : ShapeRegistry) :
    TypedUnit where
  unit := unit.name.name
  source := unit.path
  rows := unit.rows.filterMap fun row =>
    TypedRow.ofDecl? row (shapes.get? (unit.qualified row.name.name))
  methods := methods

def row? (unit : TypedUnit) (name : String) : Option TypedRow :=
  unit.rows.find? (·.name == name)

def method? (unit : TypedUnit) (name : String) : Option TypedMethod :=
  unit.methods.find? (·.name == name)

/-! The edits that write discovered field lists behind the names of bare rows. -/

/-- The field list to be inserted for a row, if it is bare and its fields are known. -/
def rowEdit? (unit : SourceUnit) (shapes : ShapeRegistry) (row : RowDecl) : Option Edit := do
  if row.fields.isSome then none
  else
    let shape ← shapes.get? (unit.qualified row.name.name)
    let fields ← discoveredFields shape
    pure (Edit.insertion row.insertionPoint (renderFields fields))

def rowEdits (unit : SourceUnit) (shapes : ShapeRegistry) : Except EditError EditList :=
  (unit.rows.filterMap (rowEdit? unit shapes)).foldlM EditList.add {}

end TypedUnit

end SqlUnits
