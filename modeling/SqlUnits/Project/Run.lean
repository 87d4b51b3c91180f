import SqlUnits.Artifact.Code
import SqlUnits.Artifact.TypedUnit
import SqlUnits.Check.Unit
import SqlUnits.Config.Basic
import SqlUnits.Report.Basic
import SqlUnits.Unit.Scanner
/-!
A run over source files. All units are checked before any is finished, since a row type is
written back with the shape that all units together have given it.
-/

namespace SqlUnits

structure SourceFile where
  path : String
  text : String
deriving DecidableEq

structure UnitResult where
  path : String
  /-- The unit's name, when its file could be read. -/
  unit : Option String := none
  /-- The source with the types that were discovered; none when the unit failed. -/
  rewritten : Option String := none
  typed : Option TypedUnit := none
  diagnostics : List Diagnostic := []

namespace UnitResult

def isFailed (r : UnitResult) : Bool :=
  r.rewritten.isNone

def isChanged (r : UnitResult) (original : String) : Bool :=
  r.rewritten.any (· != original)

def status (r : UnitResult) (original : String) : UnitStatus :=
  if r.isFailed then .failed else if r.isChanged original then .rewritten else .unchanged

end UnitResult

structure RunOutput where
  units : List UnitResult
  generated : List GeneratedFile
  report : Report
  /-- What is left in a shared database, if a connection was opened on it. -/
  stored : Option Database

/-- How far a file has come once all units are checked. -/
inductive Attempt where
  | unread (file : SourceFile) (e : ScanError)
  | failed (file : SourceFile) (unit : SourceUnit) (failure : UnitFailure)
  | passed (file : SourceFile) (unit : SourceUnit) (validated : ValidatedUnit)

namespace Attempt

def file : Attempt → SourceFile
  | unread file _ => file
  | failed file _ _ => file
  | passed file _ _ => file

/-- Only the statements of units that passed count. -/
def statements : Attempt → Nat
  | passed _ _ validated => validated.statementCount
  | _ => 0

def errorAt (code : DiagnosticCode) (location : Location) (message : String) : Diagnostic :=
  { code, severity := .error, message, location := some location }

/-- Writes the discovered types into the source of a unit that passed. -/
def finish (file : SourceFile) (unit : SourceUnit) (validated : ValidatedUnit)
    (shapes : ShapeRegistry) : UnitResult :=
  let name := some unit.name.name
  let rewritten := do
    let edits ← validated.edits.extend (← TypedUnit.rowEdits unit shapes)
    edits.apply unit.source
  match rewritten with
  | .ok text =>
      { path := file.path, unit := name, rewritten := some text
        typed := some (TypedUnit.build unit validated.methods shapes)
        diagnostics := validated.diagnostics }
  | .error e =>
      { path := file.path, unit := name
        diagnostics := validated.diagnostics ++
          [errorAt .rowConfiguration ⟨unit.path, none, none⟩ e.message] }

def result (shapes : ShapeRegistry) : Attempt → UnitResult
  | unread file e =>
      { path := file.path
        diagnostics :=
          [errorAt .sqlSyntaxError ⟨file.path, some e.line, some e.column⟩ e.message] }
  | failed file unit failure =>
      { path := file.path, unit := some unit.name.name
        diagnostics :=
          [errorAt failure.error.code (failure.location.getD ⟨unit.path, none, none⟩)
            failure.error.message] }
  | passed file unit validated => finish file unit validated shapes

end Attempt

structure Preprocessor where
  config : Config
  source : ConnectionSource
  checker : Checker
  registry : Registry

namespace Preprocessor

def validator (p : Preprocessor) : Validator where
  registry := p.registry
  checker := p.checker
  checkRowTypes := p.config.checkRowTypes
  warn := p.config.warn

def attempt (p : Preprocessor) (run : RunRecord) (file : SourceFile) : Attempt × RunRecord :=
  match SourceUnit.scan file.path file.text with
  | .error e => (.unread file e, run)
  | .ok unit =>
      match p.validator.validate p.source unit run with
      | (.ok validated, run) => (.passed file unit validated, run)
      | (.error failure, run) => (.failed file unit failure, run)

/-- Checks files in order; all of them record into one registry of shapes. -/
def attempts (p : Preprocessor) (run : RunRecord) : List SourceFile → List Attempt × RunRecord
  | [] => ([], run)
  | file :: rest =>
      let (a, run) := p.attempt run file
      let (more, run) := p.attempts run rest
      (a :: more, run)

/-- A result whose diagnostics have the severities that the configuration gives them. -/
def withSeverities (config : Config) (r : UnitResult) : UnitResult :=
  { r with
    diagnostics := r.diagnostics.map fun d =>
      { d with severity := config.severityOf d.code d.severity } }

def outcome (a : Attempt) (r : UnitResult) : UnitOutcome :=
  ⟨r.path, r.unit, r.status a.file.text, a.statements⟩

def generationFailure (e : CodeError) : Diagnostic :=
  { code := .rowConfiguration, severity := .error
    message := "code generation failed: " ++ e.message }

/-- Runs over files; a shared database begins with what is `stored`. -/
def run (p : Preprocessor) (files : List SourceFile) (stored : Option Database := none) :
    RunOutput :=
  let (attempts, record) := p.attempts { stored } files
  let results := attempts.map (Attempt.result record.shapes)
  let report := ((attempts.zip results).map fun (a, r) => outcome a r).foldl Report.addUnit {}
  let units := results.map (withSeverities p.config)
  let (generated, report) :=
    match Code.generate (results.filterMap (·.typed)) p.config.rowNamespace with
    | .ok files => (files, report)
    | .error e => ([], report.addDiagnostic (generationFailure e))
  let diagnostics := units.flatMap (·.diagnostics)
  ⟨units, generated, diagnostics.foldl Report.addDiagnostic report, record.stored⟩

end Preprocessor

end SqlUnits
