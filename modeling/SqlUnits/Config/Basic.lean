import SqlUnits.Report.Diagnostic
import SqlUnits.Sql.Dialect
import SqlUnits.Text.Ascii
import SqlUnits.Text.Blank
import SqlUnits.Text.Path
import SqlUnits.Toml.Entry
/-!
The configuration of a project. Every key is optional; relative paths start at the project root.
-/

namespace SqlUnits

structure Config where
  url : String := "sqlprobe.db"
  /-- A script that is run on every connection right after it opens. -/
  init : Option String := none
  dialect : SqlDialect := .sqlite
  /-- The module that holds generated row types. -/
  rowNamespace : String := "rows"
  outDir : String := "src/generated"
  /-- Whether declared rows are compared with the columns of their queries. -/
  checkRowTypes : Bool := true
  warn : WarnMode := .warn
  /-- The severity of some codes, instead of the one they are raised with. -/
  overrides : List (String × Severity) := []
  projectRoot : String := ""

inductive ConfigError where
  | unreadable (path reason : String)
  /-- A text that cannot be read, with its whole message. -/
  | malformed (message : String)
  | badNamespace (name : String)
  | unknownCodes (names : List String)
deriving DecidableEq

def ConfigError.message : ConfigError → String
  | unreadable path reason => "failed to read " ++ path ++ ": " ++ reason
  | malformed message => "invalid config: " ++ message
  | badNamespace name =>
      "invalid config: row_namespace must be a Rust identifier, got '" ++ name ++ "'"
  | unknownCodes names =>
      "invalid config: unknown diagnostic codes in [severity.overrides]: " ++
        String.intercalate ", " names

namespace Config

def severityOf (config : Config) (code : DiagnosticCode) (raised : Severity) : Severity :=
  (config.overrides.lookup code.name).getD raised

/-- The variable of the environment that names the database. -/
def databaseVariable : String := "SQLPROBE_DATABASE"

/-- A value from the environment replaces the database, unless it is blank. -/
def withEnvironment (config : Config) (url : String) : Config :=
  if (Text.trim url.toList).isEmpty then config else { config with url := url }

def resolve (config : Config) (path : String) : String :=
  Path.join config.projectRoot path

def isNamespace (name : String) : Bool :=
  let cs := name.toList
  !cs.isEmpty && !cs.head?.any Text.isDigit && cs.all Text.isIdentChar

def validate (config : Config) : Except ConfigError Config :=
  if !isNamespace config.rowNamespace then .error (.badNamespace config.rowNamespace)
  else
    let unknown :=
      (config.overrides.map (·.1)).filter fun name => (DiagnosticCode.ofName? name).isNone
    if unknown.isEmpty then .ok config
    else .error (.unknownCodes (unknown.mergeSort fun a b => a ≤ b))

/-- What a table for the database has so far. -/
structure DatabaseTable where
  url : Option String := none
  init : Option String := none

def readDatabaseEntry (t : DatabaseTable) (e : TomlEntry) : Except TomlError DatabaseTable := do
  match e.1.name with
  | "url" => pure { t with url := some (← e.string) }
  | "init" => pure { t with init := some (← e.path) }
  | _ => pure t

/-- The database needs a path; a script is optional. -/
def readDatabase (config : Config) (e : TomlEntry) : Except TomlError Config := do
  let record := "struct DatabaseConfig"
  let t ← (← e.fields record ["url", "init"]).foldlM readDatabaseEntry {}
  match t.url with
  | some url => pure { config with url, init := t.init }
  | none => e.missing record "url" 2

def readOverride (e : TomlEntry) : Except TomlError (String × Severity) := do
  pure (e.1.name, ← e.choice (Severity.all.map (·.name)) Severity.ofName?)

def readSeverity (config : Config) (e : TomlEntry) : Except TomlError Config := do
  let fields ← e.fields "struct SeverityThreshold" ["overrides"]
  match fields.find? (·.1.name == "overrides") with
  | some table =>
      let entries ← TomlEntry.entries "a map" table
      pure { config with overrides := ← entries.mapM readOverride }
  | none => pure config

/-- Takes one entry of the whole document; unknown keys are skipped. -/
def readEntry (config : Config) (e : TomlEntry) : Except TomlError Config := do
  match e.1.name with
  | "database" => config.readDatabase e
  | "dialect" =>
      pure { config with
        dialect := ← e.choice (SqlDialect.all.map (·.name)) SqlDialect.ofName? }
  | "row_namespace" => pure { config with rowNamespace := ← e.string }
  | "out_dir" => pure { config with outDir := ← e.path }
  | "check_row_types" => pure { config with checkRowTypes := ← e.bool }
  | "warn" =>
      pure { config with warn := ← e.choice (WarnMode.all.map (·.name)) WarnMode.ofName? }
  | "severity" => config.readSeverity e
  | _ => pure config

def ofToml (text : String) : Except ConfigError Config := do
  let malformed (e : TomlError) : ConfigError := .malformed (e.message text)
  let entries ← (Toml.parse text).mapError malformed
  let config ← (entries.foldlM readEntry {}).mapError malformed
  config.validate

end Config

end SqlUnits
