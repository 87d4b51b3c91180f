import SqlUnits.Number.Shortest
import SqlUnits.Text.Utf8
/-!
Values as a database stores them, in five storage classes.
-/

namespace SqlUnits

inductive Stored where
  | null
  | integer (n : Int64)
  | real (d : Double)
  | text (s : String)
  /-- Text whose bytes are not UTF-8. -/
  | brokenText (bytes : List UInt8)
  | blob (bytes : List UInt8)
deriving DecidableEq

namespace Stored

def isNull : Stored → Bool
  | null => true
  | _ => false

/-- The value as a placeholder takes it: what is not a number goes missing. -/
def bindable : Stored → Stored
  | real d => if d.isNan then null else real d
  | v => v

/-- The name of the storage class in messages about mapping. -/
def storageClass : Stored → String
  | null => "NULL"
  | integer _ => "an integer"
  | real _ => "a real"
  | text _ => "text"
  | brokenText _ => "text"
  | blob _ => "a blob"

/-- The name of the storage class in messages about column types. -/
def className : Stored → String
  | null => "Null"
  | integer _ => "Integer"
  | real _ => "Real"
  | text _ => "Text"
  | brokenText _ => "Text"
  | blob _ => "Blob"

def ofTextBytes (bytes : List UInt8) : Stored :=
  match Utf8.decode bytes with
  | .ok s => text s
  | .error _ => brokenText bytes

def ofInt (n : Int) : Stored :=
  integer (Int64.ofInt n)

def ofBool (b : Bool) : Stored :=
  integer (if b then 1 else 0)

end Stored

end SqlUnits
