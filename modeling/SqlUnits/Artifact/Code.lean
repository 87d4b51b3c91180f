import SqlUnits.Artifact.TypedUnit
import SqlUnits.Text.Path
import SqlUnits.Text.Quoted
/-!
Rust code for typed units: for each unit a data-access module with a trait, its implementation and
a stub, and a module of row types; then the two module lists.
-/

namespace SqlUnits

/-- A generated file, its path relative to the output directory. -/
structure GeneratedFile where
  path : String
  contents : String
deriving DecidableEq

inductive CodeError where
  | unknownConvention (word : String)
  | missingRow (unit row : String)
  | untyped (convention : String)
deriving DecidableEq

def CodeError.message : CodeError → String
  | unknownConvention word => "unknown statement kind \x60" ++ word ++ "\x60"
  | missingRow unit row => "row type " ++ row ++ " used in " ++ unit ++ " has no field list"
  | untyped convention => convention ++ " statement has no type information"

namespace Code

/-- Lower case, with an underscore before a capital that follows a small letter or a digit. -/
def snakeFrom (previousSmall : Bool) : Text → Text
  | [] => []
  | c :: rest =>
      if Text.isUpper c then
        let more := Text.lower c :: snakeFrom false rest
        if previousSmall then '_' :: more else more
      else c :: snakeFrom (Text.isLower c || Text.isDigit c) rest

def snakeCase (name : String) : String :=
  String.ofList (snakeFrom false name.toList)

/-- Words that an identifier must be marked raw for. -/
def reserved : List String :=
  ["as", "async", "await", "box", "break", "const", "continue", "dyn", "else", "enum", "extern",
    "false", "fn", "for", "if", "impl", "in", "let", "loop", "match", "mod", "move", "mut",
    "priv", "pub", "ref", "return", "static", "struct", "trait", "true", "type", "unsafe", "use",
    "where", "while", "yield"]

def identifier (name : String) : String :=
  if reserved.contains name then "r#" ++ name else name

def rustType : ValueType → String
  | .bool => "bool"
  | .int => "i32"
  | .long => "i64"
  | .double => "f64"
  | .string => "String"
  | .bytes => "Vec<u8>"
  | .date => "chrono::NaiveDate"
  | .timestamp => "chrono::NaiveDateTime"
  | .custom name => "crate::" ++ name

/-- Types whose values are handed on without a copy being asked for. -/
def isCopy : ValueType → Bool
  | .bool | .int | .long | .double | .date | .timestamp => true
  | _ => false

def typeExpr : ValueType → String
  | .bool => "ValueType::Bool"
  | .int => "ValueType::Int"
  | .long => "ValueType::Long"
  | .double => "ValueType::Double"
  | .string => "ValueType::String"
  | .bytes => "ValueType::Bytes"
  | .date => "ValueType::Date"
  | .timestamp => "ValueType::Timestamp"
  | .custom name => "ValueType::Custom(" ++ Text.quoted name ++ ".into())"

def fieldRustType : FieldType → Nullability → String
  | .descriptor, _ => "MetaColumn"
  | .value type, .yes => "Option<" ++ rustType type ++ ">"
  | .value type, _ => rustType type

def header : String :=
  "// Generated by sqlprobe. Do not edit.\n"

def sourceHeader (unit : TypedUnit) : String :=
  header ++ "// Source: " ++ unit.source ++ "\n\n"

def fieldSpec (field : TypedField) : String :=
  match field.type with
  | .descriptor => "FieldSpec::meta(" ++ Text.quoted field.name ++ ")"
  | .value type =>
      "FieldSpec::value(" ++ Text.quoted field.name ++ ", " ++ typeExpr type ++ ")"

def structText (row : TypedRow) : String :=
  "#[derive(Debug, Clone, PartialEq, Default)]\n" ++
    "pub struct " ++ row.name ++ " \x7b\n" ++
    String.join (row.fields.map fun f =>
      "    pub " ++ identifier f.name ++ ": " ++ fieldRustType f.type f.nullable ++ ",\n") ++
    "\x7d\n\n"

def implText (unit : String) (row : TypedRow) : String :=
  "impl RowType for " ++ row.name ++ " \x7b\n" ++
    "    fn name() -> &'static str \x7b\n" ++
    "        \"" ++ unit ++ "::" ++ row.name ++ "\"\n    \x7d\n\n" ++
    "    fn fields() -> Vec<FieldSpec> \x7b\n        vec![\n" ++
    String.join (row.fields.map fun f => "            " ++ fieldSpec f ++ ",\n") ++
    "        ]\n    \x7d\n\n" ++
    "    fn construct(mut values: RowValues) -> Result<Self, String> \x7b\n" ++
    "        Ok(Self \x7b\n" ++
    String.join (row.fields.map fun f =>
      "            " ++ identifier f.name ++ ": values.take(" ++ Text.quoted f.name ++ ")?,\n") ++
    "        \x7d)\n    \x7d\n\x7d\n"

/-- The module of a unit's row types. -/
def rowModule (unit : TypedUnit) : String :=
  let hasMeta := unit.rows.any fun r => r.fields.any (·.type == .descriptor)
  let uses :=
    if hasMeta then "use sqlprobe_core::\x7bMetaColumn, ValueType\x7d;\n"
    else "#[allow(unused_imports)]\nuse sqlprobe_core::ValueType;\n"
  sourceHeader unit ++ uses ++
    "use sqlprobe_runtime::\x7bFieldSpec, RowType, RowValues\x7d;\n" ++
    String.join (unit.rows.map fun row => "\n" ++ structText row ++ implText unit.unit row)

/-- The return type of a statement, and the call that runs it. -/
structure Call where
  returns : String
  body : String

def rowName (unit : TypedUnit) (statement : TypedStatement) : Except CodeError String :=
  match statement.row with
  | none => .error (.untyped statement.convention)
  | some name =>
      match unit.row? name with
      | some row => .ok row.name
      | none => .error (.missingRow unit.unit name)

def valueTypeOf (statement : TypedStatement) : Except CodeError ValueType :=
  match statement.valueType with
  | some type => .ok type
  | none => .error (.untyped statement.convention)

/-- The argument for one placeholder; a name that is no parameter is taken for a text. -/
def boundArg (method : TypedMethod) (name : String) : String :=
  let type := ((method.params.find? (·.name == name)).map (·.type)).getD .string
  let value := if isCopy type then identifier name else identifier name ++ ".clone()"
  "Parameter::typed(" ++ value ++ ", " ++ typeExpr type ++ ")"

def queryExpr (method : TypedMethod) (statement : TypedStatement) : String :=
  "&QueryPiece::new(" ++ Text.quoted (statement.sql.getD "") ++ ")" ++
    String.join (statement.args.map fun a => ".bind(" ++ boundArg method a ++ ")")

def call (unit : TypedUnit) (method : TypedMethod) (statement : TypedStatement) :
    Except CodeError Call := do
  let query := queryExpr method statement
  let row := rowName unit statement
  let value := valueTypeOf statement
  let object := statement.object.getD ""
  match Convention.ofKeyword? statement.convention with
  | none => throw (.unknownConvention statement.convention)
  | some .one => pure ⟨← row, "self.single_row(" ++ query ++ ")"⟩
  | some .maybe => pure ⟨"Option<" ++ (← row) ++ ">", "self.optional_row(" ++ query ++ ")"⟩
  | some .many => pure ⟨"Vec<" ++ (← row) ++ ">", "self.multi_row(" ++ query ++ ")"⟩
  | some .metadata => pure ⟨← row, "self.meta_row(" ++ query ++ ")"⟩
  | some .value =>
      let type ← value
      pure ⟨rustType type, "self.single_value(" ++ query ++ ", &" ++ typeExpr type ++ ")"⟩
  | some .maybeValue =>
      let type ← value
      pure ⟨"Option<" ++ rustType type ++ ">",
        "self.optional_value(" ++ query ++ ", &" ++ typeExpr type ++ ")"⟩
  | some .column =>
      let type ← value
      pure ⟨"Vec<" ++ rustType type ++ ">",
        "self.column_of(" ++ query ++ ", &" ++ typeExpr type ++ ")"⟩
  | some .update => pure ⟨"usize", "self.execute_update(" ++ query ++ ")"⟩
  | some .insertKey => pure ⟨"i64", "self.execute_insert_key(" ++ query ++ ")"⟩
  | some .call => pure ⟨"()", "self.execute_call(" ++ query ++ ")"⟩
  | some .proc =>
      let args := String.intercalate ", " (statement.args.map (boundArg method))
      pure ⟨"()", "self.call_proc(" ++ Text.quoted object ++ ", vec![" ++ args ++ "])"⟩
  | some .nextval => pure ⟨"i64", "self.next_id(" ++ Text.quoted object ++ ")"⟩

structure MethodCalls where
  method : TypedMethod
  calls : List Call

/-- A method returns what its last statement returns. -/
def MethodCalls.returns (m : MethodCalls) : String :=
  (m.calls.getLast?.map (·.returns)).getD "()"

def MethodCalls.signature (m : MethodCalls) (stub : Bool) : String :=
  let param (p : TypedParam) : String :=
    (if stub then "_" ++ p.name else identifier p.name) ++ ": " ++ rustType p.type
  "fn " ++ identifier m.method.name ++ "(" ++
    String.intercalate ", " ("&mut self" :: m.method.params.map param) ++
    ") -> Result<" ++ m.returns ++ ">"

def MethodCalls.bodyLines (m : MethodCalls) : String :=
  match m.calls.getLast? with
  | none => "        Ok(())\n"
  | some last =>
      String.join (m.calls.dropLast.map fun c => "        " ++ c.body ++ "?;\n") ++
        "        " ++ last.body ++ "\n"

def MethodCalls.implText (m : MethodCalls) : String :=
  "    " ++ m.signature false ++ " \x7b\n" ++ m.bodyLines ++ "    \x7d\n"

def MethodCalls.stubText (m : MethodCalls) : String :=
  "    " ++ m.signature true ++ " \x7b\n        Ok(Default::default())\n    \x7d\n"

/-- The data-access module of a unit. -/
def accessModule (unit : TypedUnit) (rowNamespace : String) : Except CodeError String := do
  let methods ← unit.methods.mapM fun method => do
    pure (MethodCalls.mk method (← method.statements.mapM (call unit method)))
  let api := unit.unit ++ "Api"
  let stub := unit.unit ++ "Stub"
  let rowsUse :=
    if unit.rows.isEmpty then ""
    else "\n#[allow(unused_imports)]\nuse super::" ++ rowNamespace ++ "::" ++
      snakeCase unit.unit ++ "::*;\n"
  pure (sourceHeader unit ++
    "#[allow(unused_imports)]\nuse sqlprobe_core::ValueType;\n" ++
    "#[allow(unused_imports)]\n" ++
    "use sqlprobe_runtime::\x7bDataContext, Parameter, QueryPiece, Result\x7d;\n" ++ rowsUse ++
    "\npub trait " ++ api ++ " \x7b\n" ++
    String.join (methods.map fun m => "    " ++ m.signature false ++ ";\n") ++ "\x7d\n" ++
    "\nimpl " ++ api ++ " for DataContext \x7b\n" ++
    String.intercalate "\n" (methods.map (·.implText)) ++ "\x7d\n" ++
    "\n/// Returns defaults without touching a database\n" ++
    "#[derive(Debug, Clone, Copy, Default)]\npub struct " ++ stub ++ ";\n" ++
    "\nimpl " ++ api ++ " for " ++ stub ++ " \x7b\n" ++
    String.intercalate "\n" (methods.map (·.stubText)) ++ "\x7d\n")

def moduleList (names : List String) : String :=
  header ++ "\n" ++ String.join (names.map fun name => "pub mod " ++ name ++ ";\n")

/-- The files of one unit. -/
def unitFiles (rowNamespace : String) (unit : TypedUnit) : Except CodeError (List GeneratedFile) :=
  do
    let file := snakeCase unit.unit ++ ".rs"
    pure [⟨file, ← accessModule unit rowNamespace⟩, ⟨Path.join rowNamespace file, rowModule unit⟩]

/-- All files of a run. -/
def generate (units : List TypedUnit) (rowNamespace : String) :
    Except CodeError (List GeneratedFile) := do
  let files ← units.mapM (unitFiles rowNamespace)
  let modules := (units.map fun u => snakeCase u.unit).mergeSort fun a b => a ≤ b
  pure (files.flatten ++
    [⟨"mod.rs", moduleList (rowNamespace :: modules)⟩,
      ⟨Path.join rowNamespace "mod.rs", moduleList modules⟩])

end Code

end SqlUnits
