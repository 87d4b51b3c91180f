import SqlUnits.Number.Double
import SqlUnits.Text.Hex
import SqlUnits.Value.Kind
/-!
Sample values of parameters. A sample without a declared type supplies the type.
-/

namespace SqlUnits

inductive Sample where
  | null
  | bool (b : Bool)
  | int (n : Int32)
  | long (n : Int64)
  | double (d : Double)
  | text (s : String)
  | bytes (b : List UInt8)
  /-- The text of a date, read when the sample is bound. -/
  | date (s : String)
  /-- The text of a timestamp, read when the sample is bound. -/
  | timestamp (s : String)
deriving DecidableEq

namespace Sample

def valueType? : Sample → Option ValueType
  | null => none
  | bool _ => some .bool
  | int _ => some .int
  | long _ => some .long
  | double _ => some .double
  | text _ => some .string
  | bytes _ => some .bytes
  | date _ => some .date
  | timestamp _ => some .timestamp

/-- The narrowest integer that holds `n`. -/
def ofInt? (n : Int) : Option Sample :=
  match int32? n with
  | some small => some (int small)
  | none => (int64? n).map long

/-- A numeric literal: `L` ends a long, a point or an exponent makes a double. -/
def parseNumber? (cs : Text) : Option Sample :=
  if cs.getLast? = some 'L' then do
    let n ← Text.toInt? cs.dropLast
    let n ← int64? n
    pure (long n)
  else if cs.any fun c => c == '.' || c == 'e' || c == 'E' then
    (Double.ofText? cs).map double
  else do
    let n ← Text.toInt? cs
    ofInt? n

end Sample

end SqlUnits
