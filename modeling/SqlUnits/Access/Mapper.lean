import SqlUnits.Access.Error
import SqlUnits.Database.Stored
/-!
Value mappers: how values of a type are read from result columns and bound to placeholders. A value
may take several columns, but always one placeholder.
-/

namespace SqlUnits

structure Mapper where
  type : ValueType
  /-- How many columns one value takes. -/
  columns : Nat
  /-- Reads a value from a row, beginning at a column counted from zero. -/
  read : List Stored → Nat → Except AccessError Value
  /-- The stored form of a value for the placeholder of an index counted from one. -/
  write : Nat → Value → Except AccessError Stored
  /-- Bound while a unit is checked, where no sample is given. -/
  testValue : Value

/-- The stored form of a value. -/
def Value.store : Value → Except MappingError Stored
  | .null => .ok .null
  | .bool b => .ok (.ofBool b)
  | .int n => .ok (.integer n.toInt64)
  | .long n => .ok (.integer n)
  | .double d => .ok (.real d)
  | .text s => .ok (.text s)
  | .bytes b => .ok (.blob b)
  | .date d => .ok (.text d.write)
  | .timestamp t => .ok (.text t.write)
  | .composite parts => .error (.unbindable (Value.describe (.composite parts)))
  | .descriptor c => .error (.unbindable (Value.describe (.descriptor c)))

def Stored.readText (read : String → Except String Value) :
    Except Utf8.Malformed String → Except AccessError Value
  | .error m => .error (.mapping (.malformedText m))
  | .ok s =>
      match read s with
      | .ok v => .ok v
      | .error reason => .error (.mapping (.unreadable reason))

/-- The text of a stored text. -/
def Stored.text? : Stored → Option (Except Utf8.Malformed String)
  | .text s => some (.ok s)
  | .brokenText bytes => some (Utf8.decode bytes)
  | _ => none

/-- The truth value that a text spells. -/
def Stored.spelledBool? : String → Option Bool
  | "true" => some true
  | "false" => some false
  | _ => none

/-- Reads a stored value as a value of a built-in type. -/
def Stored.readAs (type : ValueType) (raw : Stored) : Except AccessError Value :=
  let refused : Except AccessError Value :=
    match type with
    | .custom name => .error (.configuration (.ownMapper name))
    | _ => .error (.mapping (.storage raw.storageClass type))
  match type, raw with
  | _, .null => .ok .null
  | .bool, .integer n => .ok (.bool (n != 0))
  | .bool, .text s =>
      match Stored.spelledBool? s with
      | some b => .ok (.bool b)
      | none => refused
  | .int, .integer n =>
      match int32? n.toInt with
      | some small => .ok (.int small)
      | none => .error (.mapping (.tooWide n))
  | .long, .integer n => .ok (.long n)
  | .double, .integer n => .ok (.double (Double.ofInt n.toInt))
  | .double, .real d => .ok (.double d)
  | .string, .integer n => .ok (.text (toString n.toInt))
  | .string, .real d => .ok (.text d.toText)
  | .bytes, .blob b => .ok (.bytes b)
  | .bytes, .text s => .ok (.bytes (Utf8.encode s))
  | .bytes, .brokenText b => .ok (.bytes b)
  | .timestamp, .integer n =>
      match Timestamp.ofSeconds? n.toInt with
      | some t => .ok (.timestamp t)
      | none => .error (.mapping (.beyondCalendar n))
  | type, raw =>
      match type, raw.text? with
      | .string, some s => Stored.readText (fun s => .ok (.text s)) s
      | .date, some s => Stored.readText Value.parseDate s
      | .timestamp, some s => Stored.readText Value.parseTimestamp s
      | _, _ => refused

/-- A column of a row, counted from zero. -/
def columnOf (row : List Stored) (index : Nat) : Except AccessError Stored :=
  match row[index]? with
  | some raw => .ok raw
  | none => .error (.database (.columnIndex index))

namespace Mapper

/-- Adds the column, counted from one, to a mapping error. -/
def inColumn (start : Nat) : AccessError → AccessError
  | .mapping e => .mapping (.inColumn (start + 1) e)
  | e => e

def storeValue (v : Value) : Except AccessError Stored :=
  v.store.mapError .mapping

def builtin (type : ValueType) : Mapper where
  type := type
  columns := 1
  read := fun row start => do
    let raw ← columnOf row start
    (raw.readAs type).mapError (inColumn start)
  write := fun index value =>
    match value.type? with
    | some actual =>
        if actual.widensTo type then storeValue value
        else .error (.mapping (.parameterType index type actual))
    | none => storeValue value
  testValue := Value.default type

/-- A stored value as it is. -/
def plainValue : Stored → Except AccessError Value
  | .null => .ok .null
  | .integer n => .ok (.long n)
  | .real d => .ok (.double d)
  | .text s => .ok (.text s)
  | .brokenText bytes =>
      match Utf8.decode bytes with
      | .ok s => .ok (.text s)
      | .error m => .error (.mapping (.malformedText m))
  | .blob b => .ok (.bytes b)

/-- A mapper of a registered type that keeps its columns as they are stored, and binds its first
part, without asking for its type. -/
def plain (type : ValueType) (columns : Nat) (testValue : Value) : Mapper where
  type := type
  columns := columns
  read := fun row start => do
    let parts ← (List.range columns).mapM fun i => do
      plainValue (← columnOf row (start + i))
    pure (.composite parts)
  write := fun _ value =>
    match value with
    | .composite [] => .ok .null
    | .composite (first :: _) => storeValue first
    | value => storeValue value
  testValue := testValue

end Mapper

/-- Mappers by type; a later one replaces an earlier one of its type. -/
structure Registry where
  mappers : List Mapper := []

namespace Registry

def register (registry : Registry) (mapper : Mapper) : Registry :=
  ⟨mapper :: registry.mappers.filter (·.type != mapper.type)⟩

def builtins : Registry :=
  ValueType.builtins.foldl (fun r type => r.register (Mapper.builtin type)) {}

def get? (registry : Registry) (type : ValueType) : Option Mapper :=
  registry.mappers.find? (·.type == type)

def resolve (registry : Registry) (type : ValueType) : Except AccessError Mapper :=
  match registry.get? type with
  | some mapper => .ok mapper
  | none => .error (.configuration (.noMapper type))

def contains (registry : Registry) (type : ValueType) : Bool :=
  (registry.get? type).isSome

/-- The built-in type of a value, where it has a mapper. -/
def typeOf? (registry : Registry) (value : Value) : Option ValueType :=
  value.type?.filter registry.contains

def types (registry : Registry) : List ValueType :=
  (registry.mappers.map (·.type)).mergeSort ValueType.le

end Registry

end SqlUnits
