import SqlUnits.Access.Mapper
import SqlUnits.Text.Quoted
/-!
The texts by which types and records are shown for inspection.
-/

namespace SqlUnits

def ValueType.inspect : ValueType → String
  | .bool => "Bool"
  | .int => "Int"
  | .long => "Long"
  | .double => "Double"
  | .string => "String"
  | .bytes => "Bytes"
  | .date => "Date"
  | .timestamp => "Timestamp"
  | .custom name => "Custom(" ++ Text.quoted name ++ ")"

def inspectList (items : List String) : String :=
  "[" ++ String.intercalate ", " items ++ "]"

def inspectRecord (name : String) (fields : List (String × String)) : String :=
  name ++ " \x7b " ++
    String.intercalate ", " (fields.map fun (field, value) => field ++ ": " ++ value) ++ " \x7d"

def Registry.inspect (registry : Registry) : String :=
  inspectRecord "MapperRegistry" [("types", inspectList (registry.types.map ValueType.inspect))]

end SqlUnits
