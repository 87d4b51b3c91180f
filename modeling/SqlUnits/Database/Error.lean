/-!
What can go wrong between a program and its database.
-/

namespace SqlUnits

inductive DriverError where
  /-- Reported by the database without a place. -/
  | failure (message : String)
  /-- Reported by the database with a byte offset in the text of the statement. -/
  | input (message sql : String) (offset : Nat)
  | columnIndex (index : Nat)
  | columnType (index : Nat) (name className : String)
  | cannotOpen (path : String)
  | unexpectedRows
deriving DecidableEq

def DriverError.message : DriverError → String
  | failure message => message
  | input message sql offset => message ++ " in " ++ sql ++ " at offset " ++ toString offset
  | columnIndex index => "Invalid column index: " ++ toString index
  | columnType index name className =>
      "Invalid column type " ++ className ++ " at index: " ++ toString index ++ ", name: " ++ name
  | cannotOpen path => "unable to open database file: " ++ path
  | unexpectedRows => "Execute returned results - did you mean to call query?"

end SqlUnits
