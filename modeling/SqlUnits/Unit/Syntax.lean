import SqlUnits.Text.Span
import SqlUnits.Unit.Convention
import SqlUnits.Unit.Sample
/-!
Source units: row types and methods, a method being parameters and embedded statements. Spans and
offsets point into the source, where edits will be made.
-/

namespace SqlUnits

structure Ident where
  name : String
  span : Span
deriving DecidableEq

structure FieldDecl where
  name : String
  type : FieldType
  line : Nat
deriving DecidableEq

structure RowDecl where
  name : Ident
  line : Nat
  /-- Absent when the fields are to be discovered. -/
  fields : Option (List FieldDecl)
deriving DecidableEq

/-- Where a discovered field list goes. -/
def RowDecl.insertionPoint (row : RowDecl) : Nat :=
  row.name.span.stop

structure ParamDecl where
  name : Ident
  line : Nat
  type : Option ValueType
  sample : Option Sample
deriving DecidableEq

/-- Where a discovered type goes. -/
def ParamDecl.insertionPoint (param : ParamDecl) : Nat :=
  param.name.span.stop

/-- What a statement delivers its result into; a value without a type is to be discovered. -/
inductive Target where
  | none
  | row (name : Ident)
  | value (type : Option ValueType) (span : Span)
deriving DecidableEq

structure SqlText where
  text : String
  offset : Nat
deriving DecidableEq

structure StatementDecl where
  convention : Convention
  line : Nat
  target : Target
  /-- An explicit argument list. -/
  args : Option (List Ident)
  sql : Option SqlText
  /-- The procedure or sequence. -/
  object : Option Ident
deriving DecidableEq

structure MethodDecl where
  name : Ident
  line : Nat
  params : List ParamDecl
  statements : List StatementDecl
deriving DecidableEq

def MethodDecl.param? (method : MethodDecl) (name : String) : Option ParamDecl :=
  method.params.find? (·.name.name == name)

structure SourceUnit where
  path : String
  source : String
  name : Ident
  line : Nat
  rows : List RowDecl
  methods : List MethodDecl

namespace SourceUnit

def row? (unit : SourceUnit) (name : String) : Option RowDecl :=
  unit.rows.find? (·.name.name == name)

def method? (unit : SourceUnit) (name : String) : Option MethodDecl :=
  unit.methods.find? (·.name.name == name)

/-- The name of a row type among the rows of all units. -/
def qualified (unit : SourceUnit) (row : String) : String :=
  unit.name.name ++ "::" ++ row

/-- The owner of what happens in a method. -/
def methodOwner (unit : SourceUnit) (method : MethodDecl) : String :=
  unit.name.name ++ "::" ++ method.name.name

def lineOf (unit : SourceUnit) (offset : Nat) : Nat :=
  (LineIndex.ofText unit.source.toList).line offset

end SourceUnit

end SqlUnits
