import SqlUnits.Access.Dialect
import SqlUnits.Database.Connection
import SqlUnits.Query.Parsed
import SqlUnits.Sql.Outline
import SqlUnits.Value.Kind
/-!
Checkers: they tell whether a database would take a statement, a procedure call or a sequence,
and run none of them.
-/

namespace SqlUnits

/-- What a checker is asked about. -/
inductive CheckCall where
  | sql (text : String)
  | procedure (name : String) (params : List ValueType)
  | sequence (name : String)
deriving DecidableEq

inductive CheckError where
  | rejected (sql message : String)
  | unsupported (reason : String)
deriving DecidableEq

def CheckError.message : CheckError → String
  | rejected _ message => "Rejected by database: " ++ message
  | unsupported reason => "Not supported: " ++ reason

structure Checker where
  name : String
  /-- Whether what it was asked is of interest afterwards. -/
  records : Bool := false
  check : Connection → CheckCall → Except CheckError Unit

namespace Checker

/-- Prepares a text, and does no more with it; `sql` is what the text stands for. -/
def compile (c : Connection) (sql text : String) : Except CheckError Unit :=
  match c.prepare text with
  | .ok _ => .ok ()
  | .error e => .error (.rejected sql e.message)

def explained (text : String) : String := "EXPLAIN " ++ text

/-- Statements are compiled under `EXPLAIN`, except those that cannot stand there. -/
def sqlite : Checker where
  name := "sqlite"
  check := fun c call =>
    match call with
    | .sql sql =>
        if (StatementKind.ofText .sqlite sql).isSkipped then .ok ()
        else
          match Query.numbered sql with
          | .ok text => compile c sql (explained text)
          | .error e => .error (.rejected sql e.message)
    | .procedure name params =>
        let escape := Query.callForm name params.length
        match Dialect.sqlite.callSql escape with
        | .ok text => compile c escape (explained text)
        | .error e => .error (.unsupported e.message)
    | .sequence name =>
        let sql := Dialect.sqlite.nextIdSql name
        compile c sql (explained sql)

/-- Statements are compiled as they are, except blocks; nothing else can be checked. -/
def generic : Checker where
  name := "generic"
  check := fun c call =>
    match call with
    | .sql sql =>
        if StatementKind.ofText .ansi sql = .block then .ok () else compile c sql sql
    | .procedure name _ => .error (.unsupported ("cannot check procedure " ++ name))
    | .sequence name => .error (.unsupported ("cannot check sequence " ++ name))

/-- A checker that asks no database: it refuses statements by fragments that they contain, and
names that are listed as missing, each with the error to report. -/
def scripted (fragments : List (String × String)) (missing : List (String × CheckError)) :
    Checker where
  name := "mock"
  records := true
  check := fun _ call =>
    let present (name : String) : Except CheckError Unit :=
      match missing.lookup name with
      | some e => .error e
      | none => .ok ()
    match call with
    | .sql sql =>
        match fragments.find? fun f => Text.contains sql.toList f.1.toList with
        | some (_, message) => .error (.rejected sql message)
        | none => .ok ()
    | .procedure name _ => present name
    | .sequence name => present name

def ofDialect : SqlDialect → Checker
  | .sqlite => sqlite
  | .postgres => generic
  | .ansi => generic

end Checker

end SqlUnits
