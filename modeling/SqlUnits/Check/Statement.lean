import SqlUnits.Access.Nullability
import SqlUnits.Artifact.TypedUnit
import SqlUnits.Check.Binding
import SqlUnits.Check.Checker
import SqlUnits.Check.Declared
import SqlUnits.Edit.Basic
/-!
Checking one statement against a live database. Queries run for one row, to see what they return.
What a convention marks as a mutation is prepared and bound, and never runs.
-/

namespace SqlUnits

structure Validator where
  registry : Registry
  checker : Checker
  dialect : Dialect := .sqlite
  /-- Whether declared rows are compared with what queries return. -/
  checkRowTypes : Bool := true
  warn : WarnMode := .warn

/-- Where a statement stands in its unit. -/
structure Site where
  unit : SourceUnit
  method : MethodDecl
  statement : StatementDecl

namespace Site

def owner (site : Site) : String :=
  site.unit.methodOwner site.method

def location (site : Site) : Location :=
  Location.atLine site.unit.path site.statement.line

def stack (site : Site) (probe : String) : List Frame :=
  let path := site.unit.path
  [Frame.engine probe, ⟨site.owner, path, site.statement.line⟩,
    ⟨site.owner, path, site.method.line⟩, ⟨site.unit.name.name, path, site.unit.line⟩]

end Site

/-- What changes while units are checked. -/
structure CheckState where
  connection : Connection
  shapes : ShapeRegistry
  /-- What the checker was asked, if it keeps that. -/
  checks : List CheckCall := []

abbrev Checking := ExceptT ValidationError (StateM CheckState)

/-- A statement that passed, the edit that its source needs, and what there is to say about it. -/
structure Checked where
  statement : TypedStatement
  edit : Option Edit := none
  note : Option Diagnostic := none

namespace CheckError

def validationError : CheckError → ValidationError
  | rejected _ message => .driver message
  | unsupported reason => .configuration reason

end CheckError

namespace Validator

def lift (result : Except ValidationError α) : Checking α :=
  ExceptT.mk (pure result)

/-- Asks the checker about a statement that does not run, and notes the answer. -/
def askChecker (v : Validator) (site : Site) (call : CheckCall) : Checking Diagnostic := do
  let state ← get
  if v.checker.records then set { state with checks := state.checks ++ [call] }
  let statement := site.statement.convention.keyword ++ " statement in " ++ site.owner
  let note (code : DiagnosticCode) (message : String) : Diagnostic :=
    { code, severity := .info, message := statement ++ message, location := some site.location }
  match v.checker.check state.connection call with
  | .ok _ =>
      pure (note .mutationNotExecuted
        " was checked but not executed; constraints were not exercised")
  | .error (.unsupported reason) => pure (note .info (" was not checked: " ++ reason))
  | .error e => throw e.validationError

/-- Prepares a statement, and finds the stored values of its placeholders. -/
def prepare (v : Validator) (sql : String) (args : Arguments) :
    Checking (Statement × List Stored) := do
  let s ← lift (((← get).connection.prepare sql).mapError .ofDriver)
  if s.paramCount ≠ args.values.length then
    throw (.configuration ("Statement has " ++ toString s.paramCount ++ " placeholders but " ++
      toString args.values.length ++ " parameters were bound"))
  let write (arg : (ValueType × Value) × Nat) : Except ValidationError Stored := do
    let ((type, value), index) := arg
    let mapper ← (v.registry.resolve type).mapError .ofAccess
    (mapper.write index value).mapError .ofAccess
  pure (s, ← lift (((args.types.zip args.values).zipIdx 1).mapM write))

def objectName (s : StatementDecl) : Except ValidationError String :=
  match s.object with
  | some object => .ok object.name
  | none => .error (.syntaxError (s.convention.keyword ++ " statement names no object"))

/-- A procedure call or a sequence: only the checker knows about it. -/
def checkObject (v : Validator) (site : Site) (typed : TypedStatement) (args : List String)
    (call : CheckCall) : Checking Checked := do
  let note ← v.askChecker site call
  pure { statement := { typed with args }, note := some note }

def checkMutation (v : Validator) (site : Site) (typed : TypedStatement) (sql : String)
    (args : Arguments) : Checking Checked := do
  let note ← v.askChecker site (.sql sql)
  let text ← match site.statement.convention with
    | .call => lift ((v.dialect.callSql sql).mapError .ofAccess)
    | _ => pure sql
  let _ ← v.prepare text args
  pure { statement := typed, note := some note }

/-- The columns of a query, as its first row shows them. -/
def discover (v : Validator) (sql : String) (args : Arguments) : Checking (List ColumnInfo) := do
  let (s, values) ← v.prepare sql args
  let state ← get
  let (described, connection) := state.connection.describe sql s values
  set { state with connection }
  lift (described.mapError .ofDriver)

/-- The fields of a row, as its declaration has them, must fit the columns; without fields every
column needs a type. -/
def checkFields (v : Validator) (row : String) (fields : Option (List FieldDecl)) (isMeta : Bool)
    (columns : List ColumnInfo) : Except ValidationError Unit :=
  match fields with
  | some fields =>
      if v.checkRowTypes then DeclaredRow.check v.registry row fields isMeta columns else .ok ()
  | none =>
      match if isMeta then none else columns.find? (·.valueType.isNone) with
      | some column => .error (untypedColumn ("row " ++ row) column.name)
      | none => .ok ()

def checkRow (v : Validator) (site : Site) (typed : TypedStatement) (row : Ident)
    (columns : List ColumnInfo) : Checking Checked := do
  let isMeta := site.statement.convention == .metadata
  let qualified := site.unit.qualified row.name
  let fields := (site.unit.row? row.name).bind (·.fields)
  lift (v.checkFields qualified fields isMeta columns)
  let state ← get
  let (_, shapes) ← lift
    ((state.shapes.record qualified isMeta columns site.location).mapError .ofShape)
  set { state with shapes }
  pure { statement := { typed with row := some row.name } }

def checkQuery (v : Validator) (site : Site) (typed : TypedStatement) (sql : String)
    (args : Arguments) : Checking Checked := do
  let columns ← v.discover sql args
  match site.statement.target with
  | .row row => v.checkRow site typed row columns
  | .value declared span => do
      let type ← lift
        (DeclaredValue.check v.registry site.statement.convention site.owner declared columns)
      let edit := if declared.isSome then none else some (⟨span, type.name⟩ : Edit)
      pure { statement := { typed with valueType := some type }, edit }
  | .none => pure { statement := typed }

def statement (v : Validator) (params : ParamTable) (site : Site) : Checking Checked := do
  let s := site.statement
  let typed : TypedStatement :=
    { convention := s.convention.keyword, line := s.line, object := s.object.map (·.name) }
  match s.convention with
  | .proc =>
      let name ← lift (objectName s)
      let args ← lift (site.method.argumentNames (s.args.getD []))
      let types ← lift (args.mapM params.typeOf)
      v.checkObject site typed args (.procedure name types)
  | .nextval =>
      let name ← lift (objectName s)
      v.checkObject site typed [] (.sequence name)
  | _ =>
      match s.sql with
      | none => throw (.syntaxError (s.convention.keyword ++ " statement has no SQL text"))
      | some text =>
          let q ← lift ((Query.parse text.text).mapError .ofQuery)
          let args ← lift (Arguments.ofStatement v.registry params site.method s q)
          let typed := { typed with sql := some q.sql, args := args.names }
          if s.convention.isMutation then v.checkMutation site typed q.sql args
          else v.checkQuery site typed q.sql args

end Validator

end SqlUnits
