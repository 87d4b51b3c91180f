import SqlUnits.Access.Mapper
import SqlUnits.Access.Show
import SqlUnits.Number.Natural
/-!
Row types, and the factories that fill them. A factory knows for every field of a row type which
mapper reads it and how many columns that takes; the columns of a result go to the fields from
left to right. A row of data has no field for the description of a column, and a row of
descriptions has no other.
-/

namespace SqlUnits

structure RowField where
  name : String
  type : FieldType
deriving DecidableEq

/-- A type of rows. Two types of one name are told apart by their numbers. -/
structure RowType (α : Type) where
  id : Nat
  name : String
  fields : List RowField
  /-- Builds a row from one value for each field, or says why it cannot. -/
  construct : List Value → Except String α

/-- Takes values one after the other. -/
abbrev Taking := StateT (List Value) (Except String)

/-- The next value, converted for a field. -/
def Taking.take (field : String) (target : TargetType) : Taking Value := do
  match ← get with
  | [] => throw ("no value for field " ++ field)
  | v :: rest =>
      set rest
      match v.convert target with
      | .ok v => pure v
      | .error e => throw ("field " ++ field ++ ": " ++ e.message)

/-- How one field is filled. -/
structure FieldPlan where
  name : String
  columns : Nat
  /-- Absent where the field takes the description of its column. -/
  mapper : Option Mapper

structure RowFactory where
  rowType : String
  isMeta : Bool
  plan : List FieldPlan

namespace RowFactory

def planField (registry : Registry) (row : String) (isMeta : Bool) (field : RowField) :
    Except AccessError FieldPlan :=
  match field.type, isMeta with
  | .descriptor, true => .ok ⟨field.name, 1, none⟩
  | .descriptor, false => .error (.configuration (.descriptorInData field.name row))
  | .value type, true => .error (.configuration (.valueInMeta field.name row type))
  | .value type, false => do
      let mapper ← registry.resolve type
      pure ⟨field.name, mapper.columns, some mapper⟩

/-- The factory of a row type, for rows of data or for rows of descriptions. -/
def build (registry : Registry) (row : RowType α) (isMeta : Bool) :
    Except AccessError RowFactory :=
  if row.fields.isEmpty then .error (.configuration (.noFields row.name))
  else do
    let plan ← row.fields.mapM (planField registry row.name isMeta)
    pure ⟨row.name, isMeta, plan⟩

/-- How many columns the fields take together. -/
def columnCount (factory : RowFactory) : Nat :=
  total (factory.plan.map (·.columns))

def fieldNames (factory : RowFactory) : List String :=
  factory.plan.map (·.name)

def checkColumns (factory : RowFactory) (count : Nat) : Except AccessError Unit :=
  if factory.columnCount = count then .ok ()
  else .error (.configuration (.columnCount count factory.rowType factory.columnCount))

/-- Reads the fields from a row, the first one from a start column. -/
def readFrom (row : List Stored) : Nat → List FieldPlan → Except AccessError (List Value)
  | _, [] => .ok []
  | start, field :: rest => do
      let values ←
        match field.mapper with
        | some mapper => do pure [← mapper.read row start]
        | none => pure []
      pure (values ++ (← readFrom row (start + field.columns) rest))

def construct (factory : RowFactory) (row : RowType α) (values : List Value) :
    Except AccessError α :=
  (row.construct values).mapError fun reason =>
    .configuration (.rowConstructor factory.rowType reason)

/-- Maps a row of data. -/
def fetch (factory : RowFactory) (row : RowType α) (values : List Stored) :
    Except AccessError α :=
  if factory.isMeta then .error (.configuration (.dataFromMeta factory.rowType))
  else do factory.construct row (← readFrom values 0 factory.plan)

/-- Maps the descriptions of the columns of a result. -/
def fetchMeta (factory : RowFactory) (row : RowType α) (columns : List ColumnInfo) :
    Except AccessError α :=
  let width := factory.plan.length
  if !factory.isMeta then .error (.configuration (.metaFromData factory.rowType))
  else if columns.length < width then
    .error (.configuration (.columnCount columns.length factory.rowType width))
  else
    factory.construct row
      ((columns.take width).map fun c => .descriptor (MetaColumn.ofColumn c))

def inspect (factory : RowFactory) : String :=
  inspectRecord "RowTypeFactory"
    [("row_type", Text.quoted factory.rowType), ("meta", toString factory.isMeta),
      ("fields", inspectList (factory.fieldNames.map Text.quoted))]

end RowFactory

/-- Factories that were built, by row type and mode, and how often one was begun. A build that
fails leaves no factory behind. -/
structure FactoryCache where
  factories : List ((Nat × Bool) × RowFactory) := []
  builds : Nat := 0

namespace FactoryCache

def size (cache : FactoryCache) : Nat :=
  cache.factories.length

/-- The factory of a row type and mode, built on the first request. -/
def request (cache : FactoryCache) (registry : Registry) (row : RowType α) (isMeta : Bool) :
    Except AccessError RowFactory × FactoryCache :=
  match cache.factories.lookup (row.id, isMeta) with
  | some factory => (.ok factory, cache)
  | none =>
      let begun := { cache with builds := cache.builds + 1 }
      match RowFactory.build registry row isMeta with
      | .error e => (.error e, begun)
      | .ok factory =>
          (.ok factory, { begun with factories := ((row.id, isMeta), factory) :: begun.factories })

end FactoryCache

end SqlUnits
