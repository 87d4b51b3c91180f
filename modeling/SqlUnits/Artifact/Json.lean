import SqlUnits.Artifact.TypedUnit
import SqlUnits.Json.Record
/-!
Typed artifacts as JSON, written and read back.
-/

namespace SqlUnits

def ValueType.toJson (type : ValueType) : Json :=
  .str type.name

def ValueType.ofTree (t : JsonTree) : JsonRead ValueType :=
  ValueType.ofName <$> t.string

namespace TypedParam

def toJson (p : TypedParam) : Json :=
  .obj [("name", .str p.name), ("ty", p.type.toJson)]

def ofTree (t : JsonTree) : JsonRead TypedParam :=
  t.record "TypedParam" ["name", "ty"] fun m =>
    TypedParam.mk <$> m.required "name" JsonTree.string <*> m.required "ty" ValueType.ofTree

end TypedParam

namespace TypedStatement

def toJson (s : TypedStatement) : Json :=
  .objSome [
    ("convention", some (.str s.convention)),
    ("line", some (.nat s.line)),
    ("sql", s.sql.map .str),
    ("args", some (.arr (s.args.map .str))),
    ("row", s.row.map .str),
    ("value_type", s.valueType.map ValueType.toJson),
    ("object", s.object.map .str)]

def ofTree (t : JsonTree) : JsonRead TypedStatement :=
  t.record "TypedStatement"
    ["convention", "line", "sql", "args", "row", "value_type", "object"] fun m =>
    TypedStatement.mk <$> m.required "convention" JsonTree.string
      <*> m.required "line" JsonTree.count
      <*> m.optional "sql" JsonTree.string
      <*> m.orElse "args" (JsonTree.list JsonTree.string) []
      <*> m.optional "row" JsonTree.string
      <*> m.optional "value_type" ValueType.ofTree
      <*> m.optional "object" JsonTree.string

end TypedStatement

namespace TypedMethod

def toJson (t : TypedMethod) : Json :=
  .obj [
    ("name", .str t.name),
    ("params", .arr (t.params.map TypedParam.toJson)),
    ("statements", .arr (t.statements.map TypedStatement.toJson))]

def ofTree (t : JsonTree) : JsonRead TypedMethod :=
  t.record "TypedMethod" ["name", "params", "statements"] fun m =>
    TypedMethod.mk <$> m.required "name" JsonTree.string
      <*> m.required "params" (JsonTree.list TypedParam.ofTree)
      <*> m.required "statements" (JsonTree.list TypedStatement.ofTree)

end TypedMethod

def Nullability.ofTree : JsonTree → JsonRead Nullability :=
  JsonTree.choice (all.map name) ofName?

namespace TypedField

def toJson (f : TypedField) : Json :=
  .obj [
    ("name", .str f.name),
    ("ty", .str f.type.name),
    ("nullable", .str f.nullable.name)]

def ofTree (t : JsonTree) : JsonRead TypedField :=
  t.record "TypedField" ["name", "ty", "nullable"] fun m =>
    TypedField.mk <$> m.required "name" JsonTree.string
      <*> m.required "ty" (FieldType.ofName <$> ·.string)
      <*> m.orElse "nullable" Nullability.ofTree .unknown

end TypedField

namespace TypedRow

def toJson (r : TypedRow) : Json :=
  .obj [
    ("name", .str r.name),
    ("meta", .bool r.isMeta),
    ("declared", .bool r.declared),
    ("fields", .arr (r.fields.map TypedField.toJson))]

def ofTree (t : JsonTree) : JsonRead TypedRow :=
  t.record "TypedRow" ["name", "meta", "declared", "fields"] fun m =>
    TypedRow.mk <$> m.required "name" JsonTree.string
      <*> m.required "meta" JsonTree.bool
      <*> m.required "declared" JsonTree.bool
      <*> m.required "fields" (JsonTree.list TypedField.ofTree)

end TypedRow

namespace TypedUnit

def toJson (u : TypedUnit) : Json :=
  .obj [
    ("unit", .str u.unit),
    ("source", .str u.source),
    ("rows", .arr (u.rows.map TypedRow.toJson)),
    ("methods", .arr (u.methods.map TypedMethod.toJson))]

def ofTree (t : JsonTree) : JsonRead TypedUnit :=
  t.record "TypedUnit" ["unit", "source", "rows", "methods"] fun m =>
    TypedUnit.mk <$> m.required "unit" JsonTree.string
      <*> m.required "source" JsonTree.string
      <*> m.required "rows" (JsonTree.list TypedRow.ofTree)
      <*> m.required "methods" (JsonTree.list TypedMethod.ofTree)

end TypedUnit

end SqlUnits
