/-!
Statement conventions: the keyword a statement is written under says how it is executed and what
it returns.
-/

namespace SqlUnits

inductive Convention where
  | one
  | maybe
  | many
  | metadata
  | value
  | maybeValue
  | column
  | update
  | insertKey
  | call
  | proc
  | nextval
deriving DecidableEq

namespace Convention

def all : List Convention :=
  [one, maybe, many, metadata, value, maybeValue, column, update, insertKey, call, proc, nextval]

def keyword : Convention → String
  | one => "one"
  | maybe => "maybe"
  | many => "many"
  | metadata => "meta"
  | value => "value"
  | maybeValue => "maybe_value"
  | column => "column"
  | update => "update"
  | insertKey => "insert_key"
  | call => "call"
  | proc => "proc"
  | nextval => "nextval"

def ofKeyword? (word : String) : Option Convention :=
  all.find? (·.keyword == word)

/-- Conventions that populate a row type. -/
def isRow : Convention → Bool
  | one | maybe | many | metadata => true
  | _ => false

/-- Conventions that read one value of each row. -/
def isSingleColumn : Convention → Bool
  | value | maybeValue | column => true
  | _ => false

/-- Conventions that are never executed while a unit is checked. -/
def isMutation : Convention → Bool
  | update | insertKey | call | proc | nextval => true
  | _ => false

end Convention

end SqlUnits
