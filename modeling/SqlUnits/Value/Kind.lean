/-!
The types of values. Numbers widen along `int`, `long`, `double`; every other type widens to
itself alone, and a name that is not built in belongs to a type that someone registers.
-/

namespace SqlUnits

inductive ValueType where
  | bool
  | int
  | long
  | double
  | string
  | bytes
  | date
  | timestamp
  | custom (name : String)
deriving DecidableEq

namespace ValueType

def builtins : List ValueType :=
  [bool, int, long, double, string, bytes, date, timestamp]

def name : ValueType → String
  | bool => "bool"
  | int => "int"
  | long => "long"
  | double => "double"
  | string => "string"
  | bytes => "bytes"
  | date => "date"
  | timestamp => "timestamp"
  | custom name => name

def ofName (name : String) : ValueType :=
  (builtins.find? (·.name == name)).getD (custom name)

def isCustom : ValueType → Bool
  | custom _ => true
  | _ => false

/-- The place on the widening chain. -/
def rank? : ValueType → Option Nat
  | int => some 1
  | long => some 2
  | double => some 3
  | _ => none

def isNumeric (t : ValueType) : Bool :=
  t.rank?.isSome

def widensTo (t target : ValueType) : Bool :=
  t == target ||
    match t.rank?, target.rank? with
    | some a, some b => a ≤ b
    | _, _ => false

/-- The wider of two types, if one widens to the other. -/
def wider? (a b : ValueType) : Option ValueType :=
  if a.widensTo b then some b else if b.widensTo a then some a else none

def order : ValueType → Nat
  | bool => 0
  | int => 1
  | long => 2
  | double => 3
  | string => 4
  | bytes => 5
  | date => 6
  | timestamp => 7
  | custom _ => 8

/-- Built-in types in their own order, then custom ones by name. -/
def le (a b : ValueType) : Bool :=
  match a, b with
  | custom m, custom n => m ≤ n
  | _, _ => a.order ≤ b.order

end ValueType

/-- The type of a row field: a value, or the description of a column. -/
inductive FieldType where
  | value (type : ValueType)
  | descriptor
deriving DecidableEq

namespace FieldType

def ofName (name : String) : FieldType :=
  if name == "meta" then descriptor else value (ValueType.ofName name)

def name : FieldType → String
  | value type => type.name
  | descriptor => "meta"

def valueType? : FieldType → Option ValueType
  | value type => some type
  | descriptor => none

end FieldType

end SqlUnits
