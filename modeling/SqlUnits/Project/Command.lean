import SqlUnits.Artifact.Json
import SqlUnits.Config.Environment
import SqlUnits.Project.FileTree
import SqlUnits.Project.Invocation
import SqlUnits.Project.Run
import SqlUnits.Project.State
import SqlUnits.Report.Basic
/-!
The tasks of the command line, over the files of a working directory. A run that fails keeps what
it has written so far.
-/

namespace SqlUnits

/-- An error with the errors behind it, from the nearest on. -/
structure CommandError where
  message : String
  causes : List String := []
deriving DecidableEq

namespace CommandError

/-- A cause whose lines are set in behind its number, if it has one. -/
def indented (number : Option Nat) (cause : String) : String :=
  let head := match number with
    | some n => "    " ++ toString n ++ ": "
    | none => "    "
  let margin := String.ofList (List.replicate head.length ' ')
  head ++ String.intercalate ("\n" ++ margin) (cause.splitOn "\n")

def lines (e : CommandError) : List String :=
  let causes := match e.causes with
    | [] => []
    | [cause] => [indented none cause]
    | causes => causes.zipIdx.map fun (cause, n) => indented (some n) cause
  ("Error: " ++ e.message) :: (if causes.isEmpty then [] else "" :: "Caused by:" :: causes)

/-- A file that an action failed on. -/
def onFile (action path : String) (e : FileError) : CommandError :=
  ⟨"Failed to " ++ action ++ " " ++ path, [e.message]⟩

def ofConfig (e : ConfigError) : CommandError :=
  ⟨e.message,
    match e with
    | .unreadable _ reason => [reason]
    | .malformed message => [message]
    | _ => []⟩

end CommandError

/-- What a run gets from outside besides the files. -/
structure Surroundings where
  /-- The variable that names the database. -/
  database : Option String := none
  /-- The time that reports bear. -/
  timestamp : String := ""
  /-- The time of the database. -/
  now : Moment := ⟨0⟩

structure Session where
  tree : FileTree
  /-- Lines that tell how far a run has come. -/
  log : List String := []

abbrev Running := ExceptT CommandError (StateM Session)

namespace Running

def lift (result : Except CommandError α) : Running α :=
  ExceptT.mk (pure result)

def say (verbose : Bool) (line : String) : Running Unit := do
  if verbose then modify fun s => { s with log := s.log ++ [line] }

def query (f : FileTree → Except CommandError α) : Running α := do
  lift (f (← get).tree)

/-- Changes files, unless an error comes of it. -/
def change (wrap : FileError → CommandError) (f : FileTree → Except FileError FileTree) :
    Running Unit := do
  let s ← get
  let tree ← lift ((f s.tree).mapError wrap)
  set { s with tree }

def read (path : String) : Running String :=
  query fun tree => (tree.read path).mapError (.onFile "read" path)

/-- Writes a file and makes the directories that it is in. -/
def writeDeep (path text : String) : Running Unit := do
  let directory := Path.parent path
  change (.onFile "create" directory) (·.makeDirectories directory)
  change (.onFile "write" path) (·.write path text)

end Running

namespace Config

/-- The file that is read when no other one is named. -/
def fileName : String := "sqlprobe.toml"

def load (path : String) (tree : FileTree) : Except ConfigError Config := do
  let text ← (tree.read path).mapError fun e => .unreadable path e.message
  pure { ← ofToml text with projectRoot := Path.parent path }

/-- Settings from outside, of which the later ones prevail. -/
def override (config : Config) (i : Invocation) (outside? : Option String) : Config :=
  let config := if config.projectRoot.isEmpty then { config with projectRoot := "." } else config
  let config := (outside?.map config.withEnvironment).getD config
  { config with url := i.database.getD config.url, warn := i.warn.getD config.warn }

end Config

namespace SourceFile

def fileExtension : String := "sqlp"

/-- Directories that are never searched: hidden ones and build output. -/
def isIgnored (name : String) : Bool :=
  name.toList.head? == some '.' || name == "target"

def isSource (path : String) : Bool :=
  Path.extension? path == some fileExtension

/-- The sources at a path, in no order that matters. -/
def under (tree : FileTree) (root : String) : Except FileError (List String) := do
  match ← tree.node root with
  | .directory =>
      let found := (tree.below ((tree.locate? root).getD [])).filter fun (names, node) =>
        !node.isDirectory && isSource (names.getLastD "") && !names.dropLast.any isIgnored
      pure (found.map fun (names, _) => names.foldl Path.join root)
  | _ => pure (if isSource root then [root] else [])

def scanError (root : String) (e : FileError) : CommandError :=
  ⟨"Failed to scan " ++ root, ["IO error for operation on " ++ root ++ ": " ++ e.message, e.message]⟩

/-- The sources at some paths, sorted, each one once. -/
def discover (roots : List String) (tree : FileTree) : Except CommandError (List String) := do
  let found ← roots.mapM fun root => (under tree root).mapError (scanError root)
  pure (Path.distinct (found.flatten.mergeSort Path.atMost))

def readAll (i : Invocation) (config : Config) : Running (List SourceFile) := do
  let roots := if i.paths.isEmpty then [config.projectRoot] else i.paths
  let paths ← Running.query (discover roots)
  paths.mapM fun path => do pure ⟨path, ← Running.read path⟩

end SourceFile

/-- A database in a file, as connections find it. -/
structure DatabaseFile where
  path : String
  source : ConnectionSource
  stored : Option Database

namespace DatabaseFile

def script (config : Config) : Running (Option String) := do
  match config.init with
  | none => pure none
  | some init =>
      let path := config.resolve init
      let unreadable (e : FileError) : CommandError :=
        .ofConfig (.unreadable path e.message)
      some <$> Running.query fun tree => (tree.read path).mapError unreadable

/-- A file that cannot be opened fails every connection; a missing one begins empty. -/
def find (config : Config) (now : Moment) (script : Option String) (tree : FileTree) :
    DatabaseFile :=
  let path := config.resolve config.url
  let failing (e : DriverError) : DatabaseFile := ⟨path, .apart (.error e), none⟩
  match tree.node path, tree.node (Path.parent path) with
  | .ok (.database db), _ => ⟨path, .shared now script, some db⟩
  | .ok (.text ""), _ => ⟨path, .shared now script, some {}⟩
  | .ok (.text _), _ => failing (.failure "file is not a database")
  | .ok .directory, _ => failing (.cannotOpen path)
  | .error _, .ok .directory => ⟨path, .shared now script, none⟩
  | .error _, _ => failing (.cannotOpen path)

/-- The name of a database that is kept in no file. -/
def memoryName : String := ":memory:"

def isEmpty (db : Database) : Bool :=
  db.tables.isEmpty && db.views.isEmpty && db.indexes.isEmpty

/-- Keeps what connections have left; a file without any content stays an empty one. -/
def keep (file : DatabaseFile) (left : Option Database) (tree : FileTree) : FileTree :=
  match file.source, left with
  | .shared _ _, some db =>
      let node := if isEmpty db then .text "" else .database db
      ((tree.writeNode file.path node).toOption).getD tree
  | _, _ => tree

end DatabaseFile

namespace Command

def runUnits (around : Surroundings) (config : Config) (files : List SourceFile) :
    Running RunOutput := do
  let script ← DatabaseFile.script config
  let preprocessor (source : ConnectionSource) : Preprocessor :=
    ⟨config, source, .ofDialect config.dialect, .builtins⟩
  if config.url == DatabaseFile.memoryName then
    pure ((preprocessor (.memory around.now script)).run files)
  else
    let file := DatabaseFile.find config around.now script (← get).tree
    let output := (preprocessor file.source).run files file.stored
    modify fun s => { s with tree := file.keep output.stored s.tree }
    pure output

/-- Writes a report; its directory is made if it is missing. -/
def saveReport (around : Surroundings) (verbose : Bool) (report : Report) (path : String) :
    Running Unit := do
  let wrap (e : FileError) : CommandError := ⟨e.message, []⟩
  Running.change wrap (·.makeDirectories (Path.parent path))
  Running.change wrap (·.write path (report.toJson around.timestamp).pretty)
  Running.say verbose ("Report saved to: " ++ path)

def check (around : Surroundings) (i : Invocation) (config : Config) (output : Option String) :
    Running Report := do
  let files ← SourceFile.readAll i config
  Running.say i.verbose ("Checking " ++ toString files.length ++ " units...")
  let run ← runUnits around config files
  if let some path := output then saveReport around i.verbose run.report path
  pure run.report

/-- A source that must be checked, or the artifact of one that need not be. -/
inductive Staleness where
  | stale (file : SourceFile)
  | fresh (path : String) (typed : TypedUnit)

namespace Staleness

def stale? : Staleness → Option SourceFile
  | stale file => some file
  | fresh _ _ => none

def fresh? : Staleness → Option (String × TypedUnit)
  | stale _ => none
  | fresh path typed => some (path, typed)

end Staleness

/-- A source is fresh if its text is as recorded and its artifact is there. -/
def staleness (state : RunState) (outDir : String) (file : SourceFile) : Running Staleness := do
  let tree := (← get).tree
  let artifact := (state.fresh? file.path file.text).map (Path.join outDir)
  match artifact.filter tree.holds with
  | none => pure (.stale file)
  | some path =>
      let text ← Running.read path
      let typed ← Running.lift
        ((JsonTree.read TypedUnit.ofTree text).mapError fun e => ⟨e.message text, []⟩)
      pure (.fresh file.path typed)

/-- The path of the artifact of a unit in the output directory. -/
def artifactPath (unit : String) : String :=
  "typed/" ++ unit ++ ".json"

/-- Writes what a run has found out about a source; one that failed is forgotten. -/
def store (outDir : String) (verbose : Bool) (state : RunState) (r : SourceFile × UnitResult) :
    Running RunState := do
  let (file, result) := r
  match result.rewritten, result.typed with
  | some text, some typed =>
      if result.isChanged file.text then
        Running.change (.onFile "write" file.path) (·.write file.path text)
        Running.say verbose ("  Rewrote " ++ file.path)
      let artifact := artifactPath typed.unit
      Running.writeDeep (Path.join outDir artifact) typed.toJson.pretty
      pure (state.record file.path text artifact)
  | _, _ => pure (state.forget file.path)

/-- The code for all units, in order of their names. -/
def generate (config : Config) (typed : List TypedUnit) : Running (List GeneratedFile) :=
  let sorted := typed.mergeSort fun a b => a.unit ≤ b.unit
  Running.lift ((Code.generate sorted config.rowNamespace).mapError fun e => ⟨e.message, []⟩)

def loadState (path : String) (force : Bool) : Running RunState := do
  if force || !(← get).tree.holds path then pure {}
  else RunState.load <$> Running.read path

def preprocess (around : Surroundings) (i : Invocation) (config : Config) (output : String)
    (force : Bool) : Running Report := do
  let outDir := config.resolve config.outDir
  let statePath := config.resolve RunState.fileName
  let state ← loadState statePath force
  let files ← (← SourceFile.readAll i config).mapM (staleness state outDir)
  let stale := files.filterMap (·.stale?)
  let fresh := files.filterMap (·.fresh?)
  Running.say i.verbose ("Preprocessing " ++ toString stale.length ++ " units (" ++
    toString fresh.length ++ " unchanged)...")
  let run ← runUnits around config stale
  let skipped := fresh.map fun (path, typed) =>
    (⟨path, some typed.unit, .skipped, 0⟩ : UnitOutcome)
  let report := skipped.foldl Report.addUnit run.report
  let state ← (stale.zip run.units).foldlM (store outDir i.verbose) state
  let passed := run.units.filterMap fun r => r.rewritten.bind fun _ => r.typed
  let generated ← generate config (fresh.map (·.2) ++ passed)
  for file in generated do
    Running.writeDeep (Path.join outDir file.path) file.contents
  Running.say i.verbose
    ("Generated " ++ toString generated.length ++ " files to " ++ outDir)
  Running.change (.onFile "write" statePath) (·.write statePath state.toJson.pretty)
  saveReport around i.verbose report output
  pure report

def loadConfig (i : Invocation) : Running Config := do
  let tree := (← get).tree
  let load (path : String) : Running Config :=
    Running.lift ((Config.load path tree).mapError .ofConfig)
  match i.config with
  | some path => load path
  | none =>
      if tree.holds Config.fileName then load Config.fileName
      else
        Running.say i.verbose "No config file found, using defaults"
        pure { ({} : Config) with projectRoot := tree.home }

/-- The variable that names the database, from outside or from the file for variables. -/
def databaseVariable? (around : Surroundings) (tree : FileTree) : Option String :=
  let outer := (around.database.map (Config.databaseVariable, ·)).toList
  let vars := match tree.read ".env" with
    | .ok text => Environment.ofFile outer text
    | .error _ => outer
  vars.lookup Config.databaseVariable

def runInvocation (around : Surroundings) (i : Invocation) : Running Report := do
  let outside? := databaseVariable? around (← get).tree
  let config := (← loadConfig i).override i outside?
  Running.say i.verbose ("Using database: " ++ config.url)
  match i.task with
  | .preprocess output force => preprocess around i config output force
  | .check output => check around i config output

/-- What a run shows and leaves. -/
structure Outcome where
  exitCode : Nat
  out : String := ""
  err : String := ""
  tree : FileTree

def unlines (lines : List String) : String :=
  String.join (lines.map (· ++ "\n"))

/-- Runs the task that the words of a command line ask for. -/
def run (around : Surroundings) (words : List String) (tree : FileTree) : Outcome :=
  match Invocation.ofWords words with
  | .error .helpWanted => { exitCode := 0, out := UsageError.usage, tree }
  | .error e => { exitCode := 2, err := e.message, tree }
  | .ok i =>
      let (result, s) := ((runInvocation around i).run).run { tree }
      match result with
      | .ok report =>
          { exitCode := if report.hasErrors then 1 else 0
            out := unlines report.printed
            err := unlines s.log
            tree := s.tree }
      | .error e => { exitCode := 1, err := unlines (s.log ++ e.lines), tree := s.tree }

end Command

end SqlUnits
