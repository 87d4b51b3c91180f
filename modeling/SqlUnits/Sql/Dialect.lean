/-!
The dialects that statements are classified in.
-/

namespace SqlUnits

inductive SqlDialect where
  | sqlite
  | postgres
  | ansi
deriving DecidableEq

namespace SqlDialect

def all : List SqlDialect := [sqlite, postgres, ansi]

def name : SqlDialect → String
  | sqlite => "sqlite"
  | postgres => "postgres"
  | ansi => "ansi"

def ofName? (s : String) : Option SqlDialect :=
  all.find? (·.name == s)

end SqlDialect

end SqlUnits
