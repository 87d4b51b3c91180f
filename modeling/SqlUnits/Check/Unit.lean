import SqlUnits.Check.Statement
import SqlUnits.Database.Opening
import SqlUnits.Number.Natural
/-!
Checking a whole unit, statement by statement, on a connection of its own. The first error fails
the unit; one that passes has its types, the edits that write them into the source, and notes.
-/

namespace SqlUnits

structure ValidatedUnit where
  unit : String
  path : String
  params : ParamTable
  methods : List TypedMethod := []
  /-- The edits for parameters and values; those for rows need the shapes of all units. -/
  edits : EditList := {}
  diagnostics : List Diagnostic := []

namespace ValidatedUnit

def statementCount (u : ValidatedUnit) : Nat :=
  total (u.methods.map (·.statements.length))

end ValidatedUnit

abbrev Validating := ExceptT UnitFailure (StateM CheckState)

namespace Validating

/-- Puts the stack to an error. -/
def within (stack : List Frame) (c : Checking α) : Validating α :=
  ExceptT.adapt (⟨·, stack⟩) c

def addEdit (stack : List Frame) (edits : EditList) (edit : Edit) : Validating EditList :=
  within stack (Validator.lift ((edits.add edit).mapError fun e => .configuration e.message))

end Validating

/-- Whether a method binds one of its parameters in any statement; methods of one name count as
one. -/
def isUsed (methods : List TypedMethod) (method param : String) : Bool :=
  methods.any fun m => m.name == method && m.statements.any (·.args.contains param)

def StatementDecl.populates (s : StatementDecl) (row : String) : Bool :=
  match s.target with
  | .row target => target.name == row
  | _ => false

def SourceUnit.isPopulated (unit : SourceUnit) (row : String) : Bool :=
  unit.methods.any fun m => m.statements.any (·.populates row)

namespace Validator

def unusedParams (severity : Severity) (unit : SourceUnit) (methods : List TypedMethod) :
    List Diagnostic :=
  unit.methods.flatMap fun m =>
    (m.params.filter fun p => !isUsed methods m.name.name p.name.name).map fun p =>
      { code := .paramUnused, severity
        message := "Parameter " ++ p.name.name ++ " of " ++ unit.methodOwner m ++ " is never used"
        location := some (Location.atLine unit.path p.line) }

def unusedRows (severity : Severity) (unit : SourceUnit) : List Diagnostic :=
  (unit.rows.filter fun r => !unit.isPopulated r.name.name).map fun r =>
    { code := .rowUnused, severity
      message := "Row type " ++ unit.qualified r.name.name ++ " is never populated"
      location := some (Location.atLine unit.path r.line) }

def warnings (v : Validator) (unit : SourceUnit) (methods : List TypedMethod) :
    List Diagnostic :=
  match v.warn.severity? with
  | some severity => unusedParams severity unit methods ++ unusedRows severity unit
  | none => []

def validateStatement (v : Validator) (unit : SourceUnit) (method : MethodDecl)
    (draft : ValidatedUnit × List TypedStatement) (s : StatementDecl) :
    Validating (ValidatedUnit × List TypedStatement) := do
  let (u, done) := draft
  let site : Site := ⟨unit, method, s⟩
  let checked ← Validating.within (site.stack "statement") (v.statement u.params site)
  let edits ← match checked.edit with
    | some edit => Validating.addEdit (site.stack "rewrite") u.edits edit
    | none => pure u.edits
  pure ({ u with edits, diagnostics := u.diagnostics ++ checked.note.toList },
    done ++ [checked.statement])

def typedParam (params : ParamTable) (p : ParamDecl) : Except ValidationError TypedParam := do
  pure ⟨p.name.name, ← params.typeOf p.name.name⟩

/-- The edit that writes the type of a parameter behind its name, unless it has one. -/
def addParamEdit (unit : SourceUnit) (edits : EditList) (p : ParamDecl × TypedParam) :
    Validating EditList :=
  if p.1.type.isSome then pure edits
  else
    Validating.addEdit [Frame.engine "rewrite", ⟨unit.name.name, unit.path, p.1.line⟩] edits
      (Edit.insertion p.1.insertionPoint (": " ++ p.2.type.name))

def validateMethod (v : Validator) (unit : SourceUnit) (u : ValidatedUnit)
    (method : MethodDecl) : Validating ValidatedUnit := do
  let (u, statements) ← method.statements.foldlM (v.validateStatement unit method) (u, [])
  let stack := [Frame.engine "params", ⟨unit.methodOwner method, unit.path, method.line⟩]
  let params ← Validating.within stack (lift (method.params.mapM (typedParam u.params)))
  let edits ← (method.params.zip params).foldlM (addParamEdit unit) u.edits
  pure { u with edits, methods := u.methods ++ [⟨method.name.name, params, statements⟩] }

/-- Checks the statements of a unit whose parameters have their types. -/
def validateMethods (v : Validator) (unit : SourceUnit) (params : ParamTable) :
    Validating ValidatedUnit := do
  let start : ValidatedUnit := { unit := unit.name.name, path := unit.path, params }
  let u ← unit.methods.foldlM (v.validateMethod unit) start
  pure { u with diagnostics := u.diagnostics ++ v.warnings unit u.methods }

end Validator

/-- What a run over several units has gathered. -/
structure RunRecord where
  shapes : ShapeRegistry := {}
  checks : List CheckCall := []
  calls : List FunctionCall := []
  /-- What connections have left in the database that they share, once one was opened. -/
  stored : Option Database := none

namespace Validator

def cannotOpen (unit : SourceUnit) (e : DriverError) : UnitFailure :=
  ⟨.driver ("cannot open database: " ++ e.message),
    [Frame.engine "open", ⟨unit.name.name, unit.path, unit.line⟩]⟩

/-- Checks a unit on a connection that is opened for it. -/
def validate (v : Validator) (source : ConnectionSource) (unit : SourceUnit)
    (run : RunRecord) : Except UnitFailure ValidatedUnit × RunRecord :=
  match Inference.ofUnit unit v.registry with
  | .error failure => (.error failure, run)
  | .ok params =>
      match source.connect (run.stored.getD {}) with
      | (.error e, stored) =>
          (.error (cannotOpen unit e), { run with stored := some stored })
      | (.ok connection, stored) =>
          let start : CheckState := { connection, shapes := run.shapes, checks := run.checks }
          let (result, s) := ((v.validateMethods unit params).run).run start
          (result,
            { shapes := s.shapes
              checks := s.checks
              calls := run.calls ++ s.connection.calls
              stored := some (source.afterClose stored s.connection) })

end Validator

end SqlUnits
