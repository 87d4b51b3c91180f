import SqlUnits.Value.Basic
/-!
Converting mapped values to the types of row fields. A missing value becomes the zero of its
field's type, unless the field is optional.
-/

namespace SqlUnits

/-- What a field takes. -/
inductive TargetType where
  | bool
  | int
  | long
  | double
  | string
  | bytes
  | date
  | timestamp
  | descriptor
  | any
  | optional (target : TargetType)
deriving DecidableEq

namespace Value

/-- Why a value does not convert. -/
inductive ConversionError where
  | mismatch (expected : String) (value : Value)
  | tooWide (n : Int64)

def ConversionError.message : ConversionError → String
  | mismatch expected value => "cannot read " ++ value.describe ++ " as " ++ expected
  | tooWide n => toString n.toInt ++ " does not fit int"

/-- Conversion; an optional target leaves a missing value missing. -/
def convert (target : TargetType) (value : Value) : Except ConversionError Value :=
  match target, value with
  | .any, v => .ok v
  | .optional _, null => .ok null
  | .optional t, v => convert t v
  | .bool, null => .ok (bool false)
  | .bool, bool b => .ok (bool b)
  | .bool, v => .error (.mismatch "bool" v)
  | .int, null => .ok (int 0)
  | .int, int n => .ok (int n)
  | .int, long n =>
      match int32? n.toInt with
      | some small => .ok (int small)
      | none => .error (.tooWide n)
  | .int, v => .error (.mismatch "int" v)
  | .long, null => .ok (long 0)
  | .long, int n => .ok (long n.toInt64)
  | .long, long n => .ok (long n)
  | .long, v => .error (.mismatch "long" v)
  | .double, null => .ok (double Double.zero)
  | .double, int n => .ok (double (Double.ofInt n.toInt))
  | .double, long n => .ok (double (Double.ofInt n.toInt))
  | .double, double d => .ok (double d)
  | .double, v => .error (.mismatch "double" v)
  | .string, null => .ok (text "")
  | .string, text s => .ok (text s)
  | .string, v => .error (.mismatch "string" v)
  | .bytes, null => .ok (bytes [])
  | .bytes, bytes b => .ok (bytes b)
  | .bytes, v => .error (.mismatch "bytes" v)
  | .date, null => .ok (date Date.epoch)
  | .date, date d => .ok (date d)
  | .date, v => .error (.mismatch "date" v)
  | .timestamp, null => .ok (timestamp Timestamp.epoch)
  | .timestamp, timestamp t => .ok (timestamp t)
  | .timestamp, date d => .ok (timestamp (Timestamp.midnight d))
  | .timestamp, v => .error (.mismatch "timestamp" v)
  | .descriptor, descriptor c => .ok (descriptor c)
  | .descriptor, v => .error (.mismatch "column metadata" v)

end Value

/-- The target that a value of a built-in type converts to by default. -/
def ValueType.target : ValueType → TargetType
  | .bool => .bool
  | .int => .int
  | .long => .long
  | .double => .double
  | .string => .string
  | .bytes => .bytes
  | .date => .date
  | .timestamp => .timestamp
  | .custom _ => .any

end SqlUnits
