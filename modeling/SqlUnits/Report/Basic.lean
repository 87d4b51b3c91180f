import SqlUnits.Report.Diagnostic
/-!
The report of a run: what happened to every unit, every diagnostic, and totals over both.
-/

namespace SqlUnits

inductive UnitStatus where
  | rewritten
  | unchanged
  | skipped
  | failed
deriving DecidableEq

namespace UnitStatus

def all : List UnitStatus := [rewritten, unchanged, skipped, failed]

def name : UnitStatus → String
  | rewritten => "rewritten"
  | unchanged => "unchanged"
  | skipped => "skipped"
  | failed => "failed"

def ofName? (s : String) : Option UnitStatus :=
  all.find? (·.name == s)

end UnitStatus

structure UnitOutcome where
  path : String
  /-- The unit's name, when its file could be read. -/
  unit : Option String
  status : UnitStatus
  /-- Statements that were validated. -/
  statements : Nat
deriving DecidableEq

def UnitOutcome.toJson (o : UnitOutcome) : Json :=
  .objSome [
    ("path", some (.str o.path)),
    ("unit", o.unit.map .str),
    ("status", some (.str o.status.name)),
    ("statements", some (.nat o.statements))]

structure Summary where
  total : Nat := 0
  errors : Nat := 0
  warnings : Nat := 0
  info : Nat := 0
  unitsChecked : Nat := 0
  unitsFailed : Nat := 0
  unitsSkipped : Nat := 0
  statementsValidated : Nat := 0
deriving DecidableEq

def Summary.toJson (s : Summary) : Json :=
  .obj [
    ("total", .nat s.total),
    ("errors", .nat s.errors),
    ("warnings", .nat s.warnings),
    ("info", .nat s.info),
    ("units_checked", .nat s.unitsChecked),
    ("units_failed", .nat s.unitsFailed),
    ("units_skipped", .nat s.unitsSkipped),
    ("statements_validated", .nat s.statementsValidated)]

structure Report where
  summary : Summary := {}
  units : List UnitOutcome := []
  diagnostics : List Diagnostic := []
deriving DecidableEq

namespace Report

def versionMajor : Nat := 1

def versionMinor : Nat := 0

def version : String :=
  toString versionMajor ++ "." ++ toString versionMinor

/-- Totals with one more diagnostic. -/
def countDiagnostic (s : Summary) (severity : Severity) : Summary :=
  match severity with
  | .error => { s with total := s.total + 1, errors := s.errors + 1 }
  | .warn => { s with total := s.total + 1, warnings := s.warnings + 1 }
  | .info => { s with total := s.total + 1, info := s.info + 1 }

/-- Totals with one more unit; a failed unit counts as checked. -/
def countUnit (s : Summary) (outcome : UnitOutcome) : Summary :=
  let s := { s with statementsValidated := s.statementsValidated + outcome.statements }
  match outcome.status with
  | .skipped => { s with unitsSkipped := s.unitsSkipped + 1 }
  | .failed =>
      { s with unitsChecked := s.unitsChecked + 1, unitsFailed := s.unitsFailed + 1 }
  | _ => { s with unitsChecked := s.unitsChecked + 1 }

def addDiagnostic (r : Report) (d : Diagnostic) : Report :=
  { r with
    summary := countDiagnostic r.summary d.severity
    diagnostics := r.diagnostics ++ [d] }

def addUnit (r : Report) (outcome : UnitOutcome) : Report :=
  { r with summary := countUnit r.summary outcome, units := r.units ++ [outcome] }

def diagnosticsFor (r : Report) (path : String) : List Diagnostic :=
  r.diagnostics.filter fun d => d.location.any (·.file == path)

def hasErrors (r : Report) : Bool :=
  r.summary.errors > 0

def versionJson : Json :=
  .obj [("major", .nat versionMajor), ("minor", .nat versionMinor)]

/-- The report without its creation time. -/
def body (r : Report) : List (String × Json) :=
  [("summary", r.summary.toJson),
    ("units", .arr (r.units.map UnitOutcome.toJson)),
    ("diagnostics", .arr (r.diagnostics.map Diagnostic.toJson))]

def toJson (r : Report) (timestamp : String) : Json :=
  .obj ([("version", versionJson), ("timestamp", .str timestamp)] ++ r.body)

end Report

/-! A report as it is printed: every diagnostic with its place, then the totals. -/

def Severity.label : Severity → String
  | error => "error"
  | warn => "warning"
  | info => "info"

def Diagnostic.printed (d : Diagnostic) : List String :=
  [d.severity.label ++ ": " ++ d.positioned ++ " [" ++ d.code.name ++ "]"] ++
    (d.expected.map ("    Expected: " ++ ·)).toList ++
    (d.actual.map ("    Actual:   " ++ ·)).toList

namespace Report

def countLine (s : Summary) : String :=
  "Checked " ++ toString s.unitsChecked ++ " units, " ++ toString s.statementsValidated ++
    " statements" ++
    (if s.unitsSkipped > 0 then
      " (" ++ toString s.unitsSkipped ++ " unchanged units skipped)"
    else "")

def totalLine (s : Summary) : String :=
  toString s.errors ++ " errors, " ++ toString s.warnings ++ " warnings, " ++
    toString s.info ++ " info"

def printed (r : Report) : List String :=
  r.diagnostics.flatMap Diagnostic.printed ++ ["", countLine r.summary, totalLine r.summary] ++
    (if r.hasErrors then [] else ["✓ No issues found!"])

end Report

end SqlUnits
