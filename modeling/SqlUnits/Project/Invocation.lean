import SqlUnits.Number.Natural
import SqlUnits.Report.Diagnostic
import SqlUnits.Text.Ascii
/-!
What the words of a command line ask for. Options that hold for every task may stand before or
behind its name.
-/

namespace SqlUnits

inductive Task where
  /-- Checks sources, writes discovered types back and generates code. -/
  | preprocess (output : String) (force : Bool)
  /-- Checks sources and writes nothing but a report, if one is wanted. -/
  | check (output : Option String)
deriving DecidableEq

structure Invocation where
  task : Task
  /-- Files and directories; without any, the project root. -/
  paths : List String := []
  config : Option String := none
  verbose : Bool := false
  database : Option String := none
  warn : Option WarnMode := none
deriving DecidableEq

/-- Why the words are no invocation. -/
inductive UsageError where
  | helpWanted
  | unknownOption (word : String)
  | unknownTask (word : String)
  | missingTask
  | missingValue (option : String)
  | badValue (option value : String)
  | repeated (option : String)
deriving DecidableEq

namespace UsageError

def usage : String :=
  "Usage: sqlprobe [OPTIONS] <preprocess|check> [PATHS]...\n"

def message : UsageError → String
  | helpWanted => usage
  | unknownOption word => "error: unexpected argument '" ++ word ++ "' found\n"
  | unknownTask word => "error: unrecognized subcommand '" ++ word ++ "'\n"
  | missingTask => usage
  | missingValue option =>
      "error: a value is required for '--" ++ option ++ "' but none was supplied\n"
  | badValue option value =>
      "error: invalid value '" ++ value ++ "' for '--" ++ option ++ "'\n"
  | repeated option =>
      "error: the argument '--" ++ option ++ "' cannot be used multiple times\n"

end UsageError

inductive CommandOption where
  | config
  | verbose
  | database
  | warn
  | jobs
  | output
  | force
deriving DecidableEq

namespace CommandOption

def all : List CommandOption := [config, verbose, database, warn, jobs, output, force]

def name : CommandOption → String
  | config => "config"
  | verbose => "verbose"
  | database => "db"
  | warn => "warn"
  | jobs => "jobs"
  | output => "output"
  | force => "force"

def letter? : CommandOption → Option Char
  | config => some 'c'
  | verbose => some 'v'
  | jobs => some 'j'
  | output => some 'o'
  | _ => none

def takesValue : CommandOption → Bool
  | verbose => false
  | force => false
  | _ => true

def isPath : CommandOption → Bool
  | config => true
  | output => true
  | _ => false

end CommandOption

inductive TaskName where
  | preprocess
  | check
deriving DecidableEq

namespace TaskName

def ofWord? : String → Option TaskName
  | "preprocess" => some preprocess
  | "check" => some check
  | _ => none

/-- Whether an option may stand behind the name of a task, or before any. -/
def allows (task : Option TaskName) : CommandOption → Bool
  | .output => task.isSome
  | .force => task == some preprocess
  | _ => true

end TaskName

/-- What has been read of a command line. -/
structure CommandDraft where
  task : Option TaskName := none
  paths : List String := []
  values : List (CommandOption × String) := []
  /-- Options given since the name of the task, or since the start. -/
  seen : List CommandOption := []
  /-- An option whose value comes next. -/
  pending : Option CommandOption := none
  onlyPaths : Bool := false

namespace CommandDraft

/-- Whether a value is one that the option can take. -/
def fits (option : CommandOption) (value : String) : Bool :=
  match option with
  | .warn => (WarnMode.ofName? value).isSome
  | .jobs => !value.isEmpty && value.toList.all Text.isDigit &&
      Text.natOfDigits value.toList < twoPow 64
  | _ => true

def give (d : CommandDraft) (option : CommandOption) (value : String) :
    Except UsageError CommandDraft :=
  if d.seen.contains option then .error (.repeated option.name)
  else if option.isPath && value.isEmpty then .error (.missingValue option.name)
  else if !fits option value then .error (.badValue option.name value)
  else
    .ok { d with
      values := (option, value) :: d.values
      seen := option :: d.seen
      pending := none }

def find (d : CommandDraft) (word : String) (p : CommandOption → Bool) :
    Except UsageError CommandOption :=
  match CommandOption.all.find? fun option => p option && TaskName.allows d.task option with
  | some option => .ok option
  | none => .error (.unknownOption word)

/-- An option in full, with its value behind an equals sign or in the next word. -/
def long (d : CommandDraft) (word : String) : Except UsageError CommandDraft := do
  let body := word.toList.drop 2
  let name := String.ofList (body.takeWhile (· != '='))
  if name == "help" then throw .helpWanted
  let option ← d.find word (·.name == name)
  match body.dropWhile (· != '='), option.takesValue with
  | [], false => d.give option ""
  | [], true => pure { d with pending := some option }
  | _ :: value, true => d.give option (String.ofList value)
  | _ :: value, false => throw (.badValue name (String.ofList value))

/-- Letters of options; what follows one that takes a value is the value. -/
def short (word : String) : CommandDraft → Text → Except UsageError CommandDraft
  | d, [] => .ok d
  | d, letter :: rest => do
      if letter == 'h' then throw .helpWanted
      let option ← d.find word (·.letter? == some letter)
      match option.takesValue, rest with
      | false, _ => short word (← d.give option "") rest
      | true, [] => pure { d with pending := some option }
      | true, '=' :: value => d.give option (String.ofList value)
      | true, value => d.give option (String.ofList value)

/-- A word that is no option: the task, then paths. -/
def plain (d : CommandDraft) (word : String) : Except UsageError CommandDraft :=
  match d.task with
  | some _ =>
      if word.isEmpty then .error (.missingValue "paths")
      else .ok { d with paths := d.paths ++ [word] }
  | none =>
      if word == "help" then .error .helpWanted
      else
        match TaskName.ofWord? word with
        | some task => .ok { d with task := some task, seen := [] }
        | none => .error (.unknownTask word)

def isOption (word : String) : Bool :=
  word.toList.head? == some '-' && word != "-"

def step (d : CommandDraft) (word : String) : Except UsageError CommandDraft :=
  match d.pending with
  | some option =>
      if isOption word then .error (.missingValue option.name) else d.give option word
  | none =>
      if d.onlyPaths || !isOption word then d.plain word
      else if word == "--" then .ok { d with onlyPaths := true }
      else if Text.startsWith word.toList ['-', '-'] then d.long word
      else short word d (word.toList.drop 1)

def value? (d : CommandDraft) (option : CommandOption) : Option String :=
  d.values.lookup option

def finish (d : CommandDraft) : Except UsageError Invocation := do
  if let some option := d.pending then throw (.missingValue option.name)
  let output := d.value? .output
  let task ← match d.task with
    | some .preprocess =>
        pure (.preprocess (output.getD "report.json") (d.value? .force).isSome)
    | some .check => pure (.check output)
    | none => throw .missingTask
  pure {
    task
    paths := d.paths
    config := d.value? .config
    verbose := (d.value? .verbose).isSome
    database := d.value? .database
    warn := (d.value? .warn).bind WarnMode.ofName? }

end CommandDraft

def Invocation.ofWords (words : List String) : Except UsageError Invocation := do
  (← words.foldlM CommandDraft.step {}).finish

end SqlUnits
