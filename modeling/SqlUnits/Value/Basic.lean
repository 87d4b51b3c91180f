import SqlUnits.Calendar.Written
import SqlUnits.Number.Double
import SqlUnits.Shape.Column
/-!
Values that are bound to placeholders and read from result columns.
-/

namespace SqlUnits

inductive Value where
  | null
  | bool (b : Bool)
  | int (n : Int32)
  | long (n : Int64)
  | double (d : Double)
  | text (s : String)
  | bytes (b : List UInt8)
  | date (d : Date)
  | timestamp (t : Timestamp)
  /-- A value of a registered type, spread over several columns. -/
  | composite (parts : List Value)
  | descriptor (column : MetaColumn)
deriving Inhabited

namespace Value

/-- The built-in type of a value, if it has one. -/
def type? : Value → Option ValueType
  | bool _ => some .bool
  | int _ => some .int
  | long _ => some .long
  | double _ => some .double
  | text _ => some .string
  | bytes _ => some .bytes
  | date _ => some .date
  | timestamp _ => some .timestamp
  | null => none
  | composite _ => none
  | descriptor _ => none

def isNull : Value → Bool
  | null => true
  | _ => false

/-- The zero or empty value of a built-in type. -/
def default : ValueType → Value
  | .bool => bool false
  | .int => int 0
  | .long => long 0
  | .double => double Double.zero
  | .string => text ""
  | .bytes => bytes []
  | .date => date Date.epoch
  | .timestamp => timestamp Timestamp.epoch
  | .custom _ => null

/-- What a value is called in messages. -/
def describe : Value → String
  | null => "NULL"
  | bool _ => "bool"
  | int _ => "int"
  | long _ => "long"
  | double _ => "double"
  | text _ => "string"
  | bytes _ => "bytes"
  | date _ => "date"
  | timestamp _ => "timestamp"
  | composite _ => "composite value"
  | descriptor _ => "column metadata"

/-- Reads a date; the message of a failure shows the text as it was given. -/
def parseDate (s : String) : Except String Value :=
  match Date.read (Text.trim s.toList) with
  | .ok d => .ok (date d)
  | .error e => .error ("invalid date '" ++ s ++ "': " ++ e.message)

/-- Reads a timestamp; the message of a failure shows the text without outer blanks. -/
def parseTimestamp (s : String) : Except String Value :=
  let cs := Text.trim s.toList
  match Timestamp.read cs with
  | .ok t => .ok (timestamp t)
  | .error e =>
      .error ("invalid timestamp '" ++ String.ofList cs ++ "': " ++ e.message)

end Value

end SqlUnits
