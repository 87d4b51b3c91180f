import SqlUnits.Shape.Location
/-!
Diagnostics: what is reported about units. The written names of codes and severities are stable.
-/

namespace SqlUnits

inductive DiagnosticCode where
  | sqlSyntaxError
  | paramTypeConflict
  | paramUnused
  | rowShapeMismatch
  | resultCardinality
  | rowUnused
  | driverError
  | mutationNotExecuted
  | rowConfiguration
  | info
deriving DecidableEq

namespace DiagnosticCode

def all : List DiagnosticCode :=
  [sqlSyntaxError, paramTypeConflict, paramUnused, rowShapeMismatch, resultCardinality,
    rowUnused, driverError, mutationNotExecuted, rowConfiguration, info]

def name : DiagnosticCode → String
  | sqlSyntaxError => "SQL_SYNTAX_ERROR"
  | paramTypeConflict => "PARAM_TYPE_CONFLICT"
  | paramUnused => "PARAM_UNUSED"
  | rowShapeMismatch => "ROW_SHAPE_MISMATCH"
  | resultCardinality => "RESULT_CARDINALITY"
  | rowUnused => "ROW_UNUSED"
  | driverError => "DRIVER_ERROR"
  | mutationNotExecuted => "MUTATION_NOT_EXECUTED"
  | rowConfiguration => "ROW_CONFIGURATION"
  | info => "INFO"

def ofName? (s : String) : Option DiagnosticCode :=
  all.find? (·.name == s)

/-- The message for a text that names no code. -/
def unknownMessage (s : String) : String :=
  "unknown diagnostic code '" ++ s ++ "'"

end DiagnosticCode

inductive Severity where
  | info
  | warn
  | error
deriving DecidableEq

namespace Severity

def all : List Severity := [info, warn, error]

def name : Severity → String
  | info => "info"
  | warn => "warn"
  | error => "error"

def ofName? (s : String) : Option Severity :=
  all.find? (·.name == s)

end Severity

/-- How unused parameters and rows are reported. -/
inductive WarnMode where
  | silent
  | warn
  | error
deriving DecidableEq

namespace WarnMode

def all : List WarnMode := [silent, warn, error]

def name : WarnMode → String
  | silent => "none"
  | warn => "warn"
  | error => "error"

def ofName? (s : String) : Option WarnMode :=
  all.find? (·.name == s)

/-- Absent when warnings are dropped. -/
def severity? : WarnMode → Option Severity
  | silent => none
  | warn => some .warn
  | error => some .error

end WarnMode

structure Diagnostic where
  code : DiagnosticCode
  severity : Severity
  message : String
  location : Option Location := none
  /-- What the source declares, for a mismatch. -/
  expected : Option String := none
  /-- What the database reports, for a mismatch. -/
  actual : Option String := none
deriving DecidableEq

namespace Diagnostic

/-- The message with its place in front. -/
def positioned (d : Diagnostic) : String :=
  match d.location with
  | some location => location.display ++ ": " ++ d.message
  | none => d.message

def toJson (d : Diagnostic) : Json :=
  .objSome [
    ("code", some (.str d.code.name)),
    ("severity", some (.str d.severity.name)),
    ("message", some (.str d.message)),
    ("location", d.location.map Location.toJson),
    ("expected", d.expected.map .str),
    ("actual", d.actual.map .str)]

end Diagnostic

end SqlUnits
