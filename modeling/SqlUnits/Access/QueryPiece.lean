import SqlUnits.Query.Parsed
import SqlUnits.Text.Blank
import SqlUnits.Value.Basic
/-!
Fragments of SQL with the parameters of their placeholders.
-/

namespace SqlUnits

/-- A value and the type whose mapper binds it. -/
structure Parameter where
  value : Value
  type : ValueType

/-- A parameter of the type of its value, if that is built in. -/
def Parameter.infer? (value : Value) : Option Parameter :=
  value.type?.map (⟨value, ·⟩)

structure QueryPiece where
  sql : String
  params : List Parameter := []

namespace QueryPiece

def bind (piece : QueryPiece) (param : Parameter) : QueryPiece :=
  { piece with params := piece.params ++ [param] }

/-- Puts another piece behind this one, a blank between them unless there is one. -/
def append (piece other : QueryPiece) : QueryPiece :=
  let spaced :=
    if piece.sql.isEmpty || other.sql.isEmpty || piece.sql.toList.getLast?.any Text.isBlank then
      piece.sql
    else piece.sql ++ " "
  ⟨spaced ++ other.sql, piece.params ++ other.params⟩

def joinWith (pieces : List QueryPiece) (separator : String) : QueryPiece :=
  ⟨String.intercalate separator (pieces.map (·.sql)), pieces.flatMap (·.params)⟩

def placeholderCount (piece : QueryPiece) : Except Query.QueryError Nat :=
  (·.paramCount) <$> Query.parse piece.sql

end QueryPiece

end SqlUnits
