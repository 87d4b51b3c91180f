import SqlUnits.Database.Error
import SqlUnits.Text.Utf8
import SqlUnits.Value.Convert
/-!
What can go wrong when statements are run and rows are mapped.
-/

namespace SqlUnits

inductive MappingError where
  | unbindable (what : String)
  | parameterType (index : Nat) (expected actual : ValueType)
  | storage (found : String) (type : ValueType)
  | tooWide (n : Int64)
  | malformedText (m : Utf8.Malformed)
  | unreadable (reason : String)
  | beyondCalendar (seconds : Int64)
  | conversion (e : Value.ConversionError)
  | inColumn (column : Nat) (e : MappingError)

def MappingError.message : MappingError → String
  | unbindable what => what ++ " cannot be bound directly, register a value mapper for it"
  | parameterType index expected actual =>
      "parameter " ++ toString index ++ " expects " ++ expected.name ++ ", got " ++ actual.name
  | storage found type => "cannot read " ++ found ++ " as " ++ type.name
  | tooWide n => toString n.toInt ++ " does not fit int"
  | malformedText m => "invalid UTF-8 text: " ++ m.message
  | unreadable reason => reason
  | beyondCalendar seconds => toString seconds.toInt ++ " is out of timestamp range"
  | conversion e => e.message
  | inColumn column e => "column " ++ toString column ++ ": " ++ e.message

inductive ConfigurationError where
  | noMapper (type : ValueType)
  | ownMapper (name : String)
  | noFields (row : String)
  | descriptorInData (field row : String)
  | valueInMeta (field row : String) (type : ValueType)
  | columnCount (query : Nat) (row : String) (consumed : Nat)
  | dataFromMeta (row : String)
  | metaFromData (row : String)
  | rowConstructor (row reason : String)
  | placeholderCount (expected bound : Nat)
  | emptySequence (name : String)
  | outParameters
  | noProcedures
  | other (reason : String)

def ConfigurationError.message : ConfigurationError → String
  | noMapper type => "no value mapper registered for type " ++ type.name
  | ownMapper name => "custom type " ++ name ++ " needs its own value mapper"
  | noFields row => "row type " ++ row ++ " declares no fields"
  | descriptorInData field row =>
      "field " ++ field ++ " of row type " ++ row ++
        " holds column metadata, which only metadata rows can have"
  | valueInMeta field row type =>
      "field " ++ field ++ " of metadata row type " ++ row ++ " must be meta, found " ++ type.name
  | columnCount query row consumed =>
      "Different number of columns in query (" ++ toString query ++ ") and row type " ++ row ++
        " (" ++ toString consumed ++ ")"
  | dataFromMeta row =>
      "row type " ++ row ++ " is a metadata row and cannot be read from data"
  | metaFromData row =>
      "row type " ++ row ++ " is a data row and cannot hold column metadata"
  | rowConstructor row reason => "Cannot invoke row constructor of " ++ row ++ ": " ++ reason
  | placeholderCount expected bound =>
      "statement has " ++ toString expected ++ " placeholders but " ++ toString bound ++
        " parameters were bound"
  | emptySequence name => "sequence " ++ name ++ " has no row to advance"
  | outParameters => "OUT parameters are not supported by the sqlite dialect"
  | noProcedures => "procedure calls are not supported"
  | other reason => reason

inductive CardinalityError where
  | noRows
  | tooManyRows
  | tooManyColumns (columns : Nat) (type : ValueType)

def CardinalityError.message : CardinalityError → String
  | noRows => "No rows found"
  | tooManyRows => "Too many rows"
  | tooManyColumns columns type =>
      "More than one column in query: " ++ toString columns ++ " columns for a single " ++
        type.name ++ " value"

inductive AccessError where
  | database (e : DriverError)
  | mapping (e : MappingError)
  | configuration (e : ConfigurationError)
  | cardinality (e : CardinalityError)

namespace AccessError

def message : AccessError → String
  | database e => "Database error: " ++ e.message
  | mapping e => "Mapping error: " ++ e.message
  | configuration e => "Configuration error: " ++ e.message
  | cardinality e => e.message

def kind : AccessError → String
  | database _ => "Database"
  | mapping _ => "Mapping"
  | configuration _ => "Configuration"
  | cardinality _ => "Cardinality"

def isDatabaseCause : AccessError → Bool
  | database _ => true
  | _ => false

end AccessError

end SqlUnits
