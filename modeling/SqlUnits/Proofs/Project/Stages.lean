import SqlUnits.Proofs.Project.FileTree
import SqlUnits.Proofs.Project.State
/-!
The stages of a run over the files of a working directory: what it has read, what it made of that,
and what it has written, once it ended with a report.
-/

namespace SqlUnits

namespace Running

variable {s t : Session} {a : α}

/-- A computation whose result is known to be one that is wanted. -/
theorem exists_runs {x : Running α} {wanted : α → Bool}
    (found : ((x.run).run s).1.toOption.any wanted = true) :
    ∃ a t, Runs x s a t ∧ wanted a = true := by
  unfold Runs
  cases outcome : (x.run).run s with
  | mk result t =>
      rw [outcome] at found
      cases result with
      | error e => cases found
      | ok a => exact ⟨a, t, rfl, found⟩

theorem runs_map {f : α → β} {x : Running α} {b : β} :
    Runs (f <$> x) s b t ↔ ∃ a, Runs x s a t ∧ b = f a := by
  rw [map_eq_pure_bind, runs_bind]
  constructor
  · rintro ⟨a, _, found, last⟩
    obtain ⟨rfl, rfl⟩ := runs_pure.1 last
    exact ⟨a, found, rfl⟩
  · rintro ⟨a, found, rfl⟩
    exact ⟨a, t, found, runs_pure.2 ⟨rfl, rfl⟩⟩

theorem runs_lift {result : Except CommandError α} :
    Runs (lift result) s a t ↔ result = .ok a ∧ t = s := by
  have outcome : ((lift result).run).run s = (result, s) := rfl
  exact runs_iff outcome

theorem runs_get {s' : Session} : Runs (get : Running Session) s s' t ↔ s' = s ∧ t = s := by
  rw [runs_iff (run_get s), Except.ok.injEq, eq_comm]

theorem runs_set {s' : Session} {u : PUnit} :
    Runs (set s' : Running PUnit) s u t ↔ t = s' := by
  rw [runs_iff (run_set s s')]
  simp

theorem runs_modify {f : Session → Session} {u : PUnit} :
    Runs (modify f : Running PUnit) s u t ↔ t = f s := by
  have outcome : ((modify f : Running PUnit).run).run s = (.ok ⟨⟩, f s) := rfl
  rw [runs_iff outcome]
  simp

theorem runs_query {f : FileTree → Except CommandError α} :
    Runs (query f) s a t ↔ f s.tree = .ok a ∧ t = s := by
  unfold query
  rw [runs_bind]
  simp only [runs_get, runs_lift]
  constructor
  · rintro ⟨_, _, ⟨rfl, rfl⟩, found, rfl⟩
    exact ⟨found, rfl⟩
  · rintro ⟨found, rfl⟩
    exact ⟨t, t, ⟨rfl, rfl⟩, found, rfl⟩

theorem runs_change {wrap : FileError → CommandError} {f : FileTree → Except FileError FileTree}
    {u : Unit} :
    Runs (change wrap f) s u t ↔ ∃ tree, f s.tree = .ok tree ∧ t = { s with tree } := by
  unfold change
  simp only [runs_bind, runs_get, runs_lift, runs_set, mapError_eq_ok]
  constructor
  · rintro ⟨_, _, ⟨rfl, rfl⟩, tree, _, ⟨written, rfl⟩, rfl⟩
    exact ⟨tree, written, rfl⟩
  · rintro ⟨tree, written, rfl⟩
    exact ⟨s, s, ⟨rfl, rfl⟩, tree, s, ⟨written, rfl⟩, rfl⟩

/-- The lines of a session once another one was said. -/
def said (verbose : Bool) (line : String) (s : Session) : Session :=
  if verbose then { s with log := s.log ++ [line] } else s

@[simp] theorem said_tree (verbose : Bool) (line : String) (s : Session) :
    (said verbose line s).tree = s.tree := by
  unfold said
  split <;> rfl

theorem runs_say {verbose : Bool} {line : String} {u : Unit} :
    Runs (say verbose line) s u t ↔ t = said verbose line s := by
  have outcome : ((say verbose line).run).run s = (.ok (), said verbose line s) := by
    unfold say said
    split <;> rfl
  rw [runs_iff outcome]
  simp

theorem runs_read {path text : String} :
    Runs (read path) s text t ↔ s.tree.read path = .ok text ∧ t = s := by
  unfold read
  rw [runs_query, mapError_eq_ok]

theorem runs_writeDeep {path text : String} {u : Unit} :
    Runs (writeDeep path text) s u t ↔
      ∃ tree, s.tree.writeDeep path text = .ok tree ∧ t = { s with tree } := by
  unfold writeDeep
  simp only [runs_bind, runs_change, FileTree.writeDeep_eq_ok]
  constructor
  · rintro ⟨_, _, ⟨between, made, rfl⟩, tree, written, rfl⟩
    exact ⟨tree, ⟨between, made, written⟩, rfl⟩
  · rintro ⟨tree, ⟨between, made, written⟩, rfl⟩
    exact ⟨(), _, ⟨between, made, rfl⟩, tree, written, rfl⟩

/-- A computation over a list that each time leaves the session as it is. -/
theorem runs_mapM {f : α → Running β} {as : List α} {bs : List β}
    {made : α → β → Prop} (one : ∀ {a b t}, Runs (f a) s b t ↔ made a b ∧ t = s) :
    Runs (as.mapM f) s bs t ↔ List.Forall₂ made as bs ∧ t = s := by
  induction as generalizing bs t with
  | nil =>
      rw [List.mapM_nil, runs_pure]
      constructor
      · rintro ⟨rfl, rfl⟩
        exact ⟨.nil, rfl⟩
      · rintro ⟨none, rfl⟩
        cases none
        exact ⟨rfl, rfl⟩
  | cons a as ih =>
      rw [List.mapM_cons, runs_bind]
      constructor
      · rintro ⟨b, _, first, later⟩
        obtain ⟨here, rfl⟩ := one.1 first
        obtain ⟨bs, _, later, last⟩ := runs_bind.1 later
        obtain ⟨others, rfl⟩ := ih.1 later
        obtain ⟨rfl, rfl⟩ := runs_pure.1 last
        exact ⟨.cons here others, rfl⟩
      · rintro ⟨all, rfl⟩
        cases all with
        | cons first others =>
            exact ⟨_, _, one.2 ⟨first, rfl⟩, runs_bind.2 ⟨_, _, ih.2 ⟨others, rfl⟩,
              runs_pure.2 ⟨rfl, rfl⟩⟩⟩

/-- Files that are written one after the other. -/
theorem runs_writeAll {path text : β → String} {files : List β} {u : PUnit} :
    Runs (forIn files PUnit.unit fun file _ => do
        writeDeep (path file) (text file)
        pure (.yield PUnit.unit)) s u t ↔
      ∃ tree, files.foldlM (fun tree file => tree.writeDeep (path file) (text file)) s.tree =
        .ok tree ∧ t = { s with tree } := by
  induction files generalizing s with
  | nil =>
      rw [List.forIn_nil, runs_pure, List.foldlM_nil]
      constructor
      · rintro ⟨_, rfl⟩
        exact ⟨t.tree, rfl, rfl⟩
      · rintro ⟨_, same, rfl⟩
        cases same
        exact ⟨rfl, rfl⟩
  | cons file files ih =>
      rw [List.forIn_cons, List.foldlM_cons]
      simp only [bind_assoc, pure_bind, runs_bind, runs_writeDeep, ih]
      constructor
      · rintro ⟨_, _, ⟨between, first, rfl⟩, tree, others, rfl⟩
        exact ⟨tree, by rw [first]; exact others, rfl⟩
      · rintro ⟨tree, all, rfl⟩
        cases first : s.tree.writeDeep (path file) (text file) with
        | error e =>
            rw [first] at all
            cases all
        | ok between =>
            rw [first] at all
            exact ⟨(), _, ⟨between, rfl, rfl⟩, tree, all, rfl⟩

end Running

namespace SourceFile

/-- Where a run looks for sources. -/
def roots (i : Invocation) (config : Config) : List String :=
  if i.paths.isEmpty then [config.projectRoot] else i.paths

/-- The sources that are found at some paths, as they are read. -/
def Found (roots : List String) (tree : FileTree) (files : List SourceFile) : Prop :=
  ∃ paths, discover roots tree = .ok paths ∧
    List.Forall₂ (fun path file => file.path = path ∧ tree.read path = .ok file.text) paths files

theorem Found.unique {roots : List String} {tree : FileTree} {files files' : List SourceFile}
    (found : Found roots tree files) (found' : Found roots tree files') :
    files = files' := by
  obtain ⟨paths, searched, all⟩ := found
  obtain ⟨paths', searched', all'⟩ := found'
  rw [searched] at searched'
  obtain rfl := Except.ok.inj searched'
  clear searched searched'
  induction all generalizing files' with
  | nil =>
      cases all'
      rfl
  | @cons path file _ _ one _ ih =>
      cases all' with
      | @cons _ file' _ _ one' rest' =>
          obtain ⟨first, text⟩ := file
          obtain ⟨first', text'⟩ := file'
          obtain rfl : first = path := one.1
          obtain rfl : first' = first := one'.1
          cases one.2.symm.trans one'.2
          rw [ih rest']

theorem Found.read {roots : List String} {tree : FileTree} {files : List SourceFile}
    (found : Found roots tree files) {file : SourceFile} (member : file ∈ files) :
    tree.read file.path = .ok file.text ∧ isSource file.path = true := by
  obtain ⟨paths, searched, all⟩ := found
  obtain ⟨path, inside, rfl, read⟩ := (forall₂_mem all).2 file member
  exact ⟨read, FileTree.isSource_of_discover searched _ inside⟩

theorem runs_readAll {i : Invocation} {config : Config} {s t : Session} {files : List SourceFile} :
    Runs (readAll i config) s files t ↔ Found (roots i config) s.tree files ∧ t = s := by
  have one {path : String} {file : SourceFile} {t : Session} :
      Runs (do pure (⟨path, ← Running.read path⟩ : SourceFile)) s file t ↔
        (file.path = path ∧ s.tree.read path = .ok file.text) ∧ t = s := by
    simp only [runs_bind, Running.runs_read, runs_pure]
    constructor
    · rintro ⟨text, _, ⟨found, rfl⟩, rfl, rfl⟩
      exact ⟨⟨rfl, found⟩, rfl⟩
    · rintro ⟨⟨rfl, found⟩, rfl⟩
      exact ⟨file.text, t, ⟨found, rfl⟩, rfl, rfl⟩
  unfold readAll Found roots
  simp only [runs_bind, Running.runs_query]
  constructor
  · rintro ⟨paths, _, ⟨found, rfl⟩, all⟩
    obtain ⟨all, rfl⟩ := (Running.runs_mapM one).1 all
    exact ⟨⟨paths, found, all⟩, rfl⟩
  · rintro ⟨⟨paths, found, all⟩, rfl⟩
    exact ⟨paths, t, ⟨found, rfl⟩, (Running.runs_mapM one).2 ⟨all, rfl⟩⟩

end SourceFile

namespace DatabaseFile

theorem find_path (config : Config) (now : Moment) (script : Option String) (tree : FileTree) :
    (find config now script tree).path = config.resolve config.url := by
  unfold find
  dsimp only
  split <;> rfl

/-- What connections have left is written to the file that they found, if at all. -/
theorem keep_writes (file : DatabaseFile) (left : Option Database) (tree : FileTree) :
    file.keep left tree = tree ∨ ∃ node, node.isDirectory = false ∧
      tree.writeNode file.path node = .ok (file.keep left tree) := by
  unfold keep
  split
  · next db _ =>
    have isFile : (if isEmpty db then FileNode.text "" else .database db).isDirectory = false := by
      split <;> rfl
    dsimp only
    cases written : tree.writeNode file.path (if isEmpty db then .text "" else .database db) with
    | error e => exact .inl rfl
    | ok next => exact .inr ⟨_, isFile, written⟩
  · exact .inl rfl

end DatabaseFile

/-- What a run takes from outside of its sources. -/
structure Settings where
  config : Config
  source : ConnectionSource
  /-- The database that connections find, if there is one in a file. -/
  stored : Option Database

namespace Settings

def preprocessor (k : Settings) : Preprocessor :=
  ⟨k.config, k.source, .ofDialect k.config.dialect, .builtins⟩

def run (k : Settings) (files : List SourceFile) : RunOutput :=
  k.preprocessor.run files k.stored

end Settings

namespace Command

variable {around : Surroundings} {i : Invocation} {config : Config} {s t : Session}
  {tree : FileTree} {k : Settings}

/-- The script that is run as a connection opens. -/
def scriptOf (config : Config) (tree : FileTree) : Except CommandError (Option String) :=
  match config.init with
  | none => .ok none
  | some init =>
      let path := config.resolve init
      ((tree.read path).mapError fun e => .ofConfig (.unreadable path e.message)).map some

theorem runs_script {script : Option String} :
    Runs (DatabaseFile.script config) s script t ↔ scriptOf config s.tree = .ok script ∧ t = s := by
  unfold DatabaseFile.script scriptOf
  cases config.init with
  | none => simp [runs_pure, eq_comm]
  | some init =>
      dsimp only
      simp only [Running.runs_map, Running.runs_query]
      cases (s.tree.read (config.resolve init)).mapError _ with
      | error e => simp [Except.map]
      | ok text =>
          simp only [Except.ok.injEq, Except.map]
          constructor
          · rintro ⟨_, ⟨rfl, rfl⟩, rfl⟩
            exact ⟨rfl, rfl⟩
          · rintro ⟨rfl, rfl⟩
            exact ⟨text, ⟨rfl, rfl⟩, rfl⟩

/-- How a run gets at its database. -/
def connecting (around : Surroundings) (config : Config) (tree : FileTree) :
    Except CommandError Settings := do
  let script ← scriptOf config tree
  if config.url == DatabaseFile.memoryName then
    pure ⟨config, .memory around.now script, none⟩
  else
    let file := DatabaseFile.find config around.now script tree
    pure ⟨config, file.source, file.stored⟩

theorem connecting_config (connects : connecting around config tree = .ok k) :
    k.config = config := by
  unfold connecting at connects
  cases script : scriptOf config tree with
  | error e =>
      rw [script] at connects
      cases connects
  | ok script =>
      simp only [script, bind, Except.bind] at connects
      split at connects <;> (cases connects; rfl)

/-- A file is written to at most where the database is. -/
theorem runs_runUnits {files : List SourceFile} {output : RunOutput}
    (runs : Runs (runUnits around config files) s output t) :
    ∃ k, connecting around config s.tree = .ok k ∧ output = k.run files ∧
      (t.tree = s.tree ∨ ∃ node, node.isDirectory = false ∧
        s.tree.writeNode (config.resolve config.url) node = .ok t.tree) := by
  unfold runUnits at runs
  rw [runs_bind] at runs
  obtain ⟨script, _, scripted, rest⟩ := runs
  obtain ⟨scripted, rfl⟩ := runs_script.1 scripted
  unfold connecting
  rw [scripted]
  dsimp only [bind, Except.bind]
  by_cases memory : (config.url == DatabaseFile.memoryName) = true
  · simp only [memory, if_true, runs_pure] at rest ⊢
    obtain ⟨rfl, rfl⟩ := rest
    exact ⟨_, rfl, rfl, .inl rfl⟩
  · rw [if_neg memory, runs_bind] at rest
    rw [if_neg memory]
    obtain ⟨_, _, found, rest⟩ := rest
    obtain ⟨rfl, rfl⟩ := Running.runs_get.1 found
    obtain ⟨_, _, kept, last⟩ := runs_bind.1 rest
    obtain rfl := Running.runs_modify.1 kept
    obtain ⟨rfl, rfl⟩ := runs_pure.1 last
    refine ⟨_, rfl, rfl, ?_⟩
    rw [← DatabaseFile.find_path config around.now script]
    exact DatabaseFile.keep_writes _ _ _

/-- What a state file holds; a missing one counts as empty. -/
def StateAt (path : String) (tree : FileTree) (state : RunState) : Prop :=
  (tree.holds path = false ∧ state = {}) ∨ ∃ text, tree.read path = .ok text ∧ state = .load text

theorem holds_of_read {path text : String} (read : tree.read path = .ok text) :
    tree.holds path = true := by
  unfold FileTree.read at read
  unfold FileTree.holds
  cases found : tree.node path with
  | error e =>
      rw [found] at read
      cases read
  | ok node => rfl

theorem runs_loadState {path : String} {state : RunState} :
    Runs (loadState path false) s state t ↔ StateAt path s.tree state ∧ t = s := by
  unfold loadState StateAt
  rw [runs_bind]
  constructor
  · rintro ⟨_, _, found, rest⟩
    obtain ⟨rfl, rfl⟩ := Running.runs_get.1 found
    cases holds : FileTree.holds _ path with
    | false =>
        rw [holds] at rest
        obtain ⟨rfl, rfl⟩ := runs_pure.1 rest
        exact ⟨.inl ⟨rfl, rfl⟩, rfl⟩
    | true =>
        rw [holds] at rest
        obtain ⟨text, found, rfl⟩ := Running.runs_map.1 rest
        obtain ⟨found, rfl⟩ := Running.runs_read.1 found
        exact ⟨.inr ⟨text, found, rfl⟩, rfl⟩
  · rintro ⟨found, rfl⟩
    refine ⟨t, t, Running.runs_get.2 ⟨rfl, rfl⟩, ?_⟩
    rcases found with ⟨missing, rfl⟩ | ⟨text, found, rfl⟩
    · rw [missing]
      exact runs_pure.2 ⟨rfl, rfl⟩
    · rw [holds_of_read found]
      exact Running.runs_map.2 ⟨text, Running.runs_read.2 ⟨found, rfl⟩, rfl⟩

/-- The state that a run begins with; a forced one knows nothing of earlier ones. -/
def Loaded (path : String) (tree : FileTree) (state : RunState) : Bool → Prop
  | true => state = {}
  | false => StateAt path tree state

theorem runs_loadState_loaded {path : String} {state : RunState} {force : Bool} :
    Runs (loadState path force) s state t ↔ Loaded path s.tree state force ∧ t = s := by
  cases force with
  | false => exact runs_loadState
  | true =>
      unfold loadState Loaded
      rw [runs_bind]
      constructor
      · rintro ⟨_, _, found, rest⟩
        obtain ⟨rfl, rfl⟩ := Running.runs_get.1 found
        exact runs_pure.1 rest
      · rintro ⟨rfl, rfl⟩
        exact ⟨t, t, Running.runs_get.2 ⟨rfl, rfl⟩, runs_pure.2 ⟨rfl, rfl⟩⟩

/-- The artifact of a source that need not be checked again. -/
def artifact? (state : RunState) (outDir : String) (tree : FileTree) (file : SourceFile) :
    Option String :=
  ((state.fresh? file.path file.text).map (Path.join outDir)).filter tree.holds

/-- How a source stands. -/
inductive Marked (state : RunState) (outDir : String) (tree : FileTree) :
    SourceFile → Staleness → Prop
  | stale {file : SourceFile} : artifact? state outDir tree file = none →
      Marked state outDir tree file (.stale file)
  | fresh {file : SourceFile} {path text : String} {typed : TypedUnit} :
      artifact? state outDir tree file = some path → tree.read path = .ok text →
      JsonTree.read TypedUnit.ofTree text = .ok typed →
      Marked state outDir tree file (.fresh file.path typed)

theorem runs_staleness {state : RunState} {outDir : String} {file : SourceFile}
    {mark : Staleness} :
    Runs (staleness state outDir file) s mark t ↔
      Marked state outDir s.tree file mark ∧ t = s := by
  unfold staleness
  rw [runs_bind]
  constructor
  · rintro ⟨_, _, found, rest⟩
    obtain ⟨rfl, rfl⟩ := Running.runs_get.1 found
    dsimp only at rest
    split at rest
    · next none_ =>
      obtain ⟨rfl, rfl⟩ := runs_pure.1 rest
      exact ⟨.stale none_, rfl⟩
    · next path some_ =>
      simp only [runs_bind, Running.runs_read, Running.runs_lift, mapError_eq_ok, runs_pure]
        at rest
      obtain ⟨text, _, ⟨read, rfl⟩, typed, _, ⟨known, rfl⟩, rfl, rfl⟩ := rest
      exact ⟨.fresh some_ read known, rfl⟩
  · rintro ⟨marked, rfl⟩
    refine ⟨t, t, Running.runs_get.2 ⟨rfl, rfl⟩, ?_⟩
    cases marked with
    | stale none_ =>
        unfold artifact? at none_
        dsimp only
        rw [none_]
        exact runs_pure.2 ⟨rfl, rfl⟩
    | fresh some_ read known =>
        unfold artifact? at some_
        dsimp only
        rw [some_]
        simp only [runs_bind, Running.runs_read, Running.runs_lift, mapError_eq_ok, runs_pure]
        exact ⟨_, t, ⟨read, rfl⟩, _, t, ⟨known, rfl⟩, rfl, rfl⟩

/-- What storing the result of a source does. One that passed is recorded with the text and the
artifact that are written; one that failed is forgotten. -/
inductive Stores (outDir : String) (state : RunState) (file : SourceFile) (r : UnitResult)
    (before : FileTree) : RunState → FileTree → Prop
  | passed {text : String} {typed : TypedUnit} {between after : FileTree} :
      r.rewritten = some text → r.typed = some typed →
      (if text = file.text then between = before
        else before.write file.path text = .ok between) →
      between.writeDeep (Path.join outDir (artifactPath typed.unit)) typed.toJson.pretty =
        .ok after →
      Stores outDir state file r before (state.record file.path text (artifactPath typed.unit))
        after
  | failed : (∀ text typed, r.rewritten = some text → r.typed ≠ some typed) →
      Stores outDir state file r before (state.forget file.path) before

theorem runs_store {outDir : String} {verbose : Bool} {state next : RunState} {file : SourceFile}
    {r : UnitResult} (runs : Runs (store outDir verbose state (file, r)) s next t) :
    Stores outDir state file r s.tree next t.tree := by
  unfold store at runs
  dsimp only at runs
  split at runs
  · next text typed written artifact =>
    have changed : r.isChanged file.text = true ↔ text ≠ file.text := by
      rw [UnitResult.isChanged, written, Option.any_some, bne_iff_ne]
    split at runs
    · next is =>
      simp only [runs_bind, Running.runs_change, Running.runs_say, Running.runs_writeDeep,
        runs_pure] at runs
      obtain ⟨_, _, ⟨between, rewrites, rfl⟩, _, _, rfl, _, _, ⟨after, writes, rfl⟩, rfl, rfl⟩ :=
        runs
      rw [Running.said_tree] at writes
      refine .passed written artifact ?_ writes
      rw [if_neg (changed.1 is)]
      exact rewrites
    · next isNot =>
      simp only [runs_bind, Running.runs_writeDeep, runs_pure] at runs
      obtain ⟨_, _, ⟨after, writes, rfl⟩, rfl, rfl⟩ := runs
      refine .passed written artifact ?_ writes
      rw [if_pos (not_not.1 (changed.not.1 isNot))]
  · next other =>
    obtain ⟨rfl, rfl⟩ := runs_pure.1 runs
    exact .failed fun text typed written artifact => other text typed written artifact

/-- What is known before a run writes anything. -/
structure Survey where
  state : RunState
  files : List SourceFile
  marks : List Staleness

namespace Survey

def stale (v : Survey) : List SourceFile :=
  v.marks.filterMap (·.stale?)

def fresh (v : Survey) : List (String × TypedUnit) :=
  v.marks.filterMap (·.fresh?)

/-- Sources that are not stale are reported as skipped. -/
def report (v : Survey) (k : Settings) : Report :=
  (v.fresh.map fun f => (⟨f.1, some f.2.unit, .skipped, 0⟩ : UnitOutcome)).foldl Report.addUnit
    (k.run v.stale).report

/-- The artifacts that code is generated for. -/
def typed (v : Survey) (k : Settings) : List TypedUnit :=
  v.fresh.map (·.2) ++ (k.run v.stale).units.filterMap fun r => r.rewritten.bind fun _ => r.typed

/-- The code for these artifacts, in order of the names of units. -/
def code (v : Survey) (k : Settings) : Except CodeError (List GeneratedFile) :=
  Code.generate ((v.typed k).mergeSort fun a b => a.unit ≤ b.unit) k.config.rowNamespace

/-- What is found with some settings. -/
structure Of (v : Survey) (i : Invocation) (config : Config) (tree : FileTree) : Prop where
  state : StateAt (config.resolve RunState.fileName) tree v.state
  files : SourceFile.Found (SourceFile.roots i config) tree v.files
  marks : List.Forall₂ (Marked v.state (config.resolve config.outDir) tree) v.files v.marks

/-- What is found by a run that may be forced. -/
structure Begins (v : Survey) (i : Invocation) (config : Config) (force : Bool)
    (tree : FileTree) : Prop where
  state : Loaded (config.resolve RunState.fileName) tree v.state force
  files : SourceFile.Found (SourceFile.roots i config) tree v.files
  marks : List.Forall₂ (Marked v.state (config.resolve config.outDir) tree) v.files v.marks

theorem Begins.of {v : Survey} {i : Invocation} {config : Config} {tree : FileTree}
    (begins : v.Begins i config false tree) : v.Of i config tree :=
  ⟨begins.state, begins.files, begins.marks⟩

/-- What is written, one thing after the other: the database, what is made of stale sources, code,
the state, and the report. -/
structure Writes (v : Survey) (k : Settings) (verbose : Bool) (output : String)
    (before : FileTree) (state : RunState) (after : FileTree) : Prop where
  parts : ∃ s₁ s₂ : Session, ∃ generated tree₃ tree₄ text,
    (s₁.tree = before ∨ ∃ node, node.isDirectory = false ∧
      before.writeNode (k.config.resolve k.config.url) node = .ok s₁.tree) ∧
    Runs ((v.stale.zip (k.run v.stale).units).foldlM
      (store (k.config.resolve k.config.outDir) verbose) v.state) s₁ state s₂ ∧
    v.code k = .ok generated ∧
    generated.foldlM (fun tree file => tree.writeDeep
      (Path.join (k.config.resolve k.config.outDir) file.path) file.contents) s₂.tree = .ok tree₃ ∧
    tree₃.write (k.config.resolve RunState.fileName) state.toJson.pretty = .ok tree₄ ∧
    tree₄.writeDeep output text = .ok after

end Survey

theorem runs_generate {typed : List TypedUnit} {generated : List GeneratedFile}
    (runs : Runs (generate config typed) s generated t) :
    Code.generate (typed.mergeSort fun a b => a.unit ≤ b.unit) config.rowNamespace =
      .ok generated ∧ t = s := by
  unfold generate at runs
  rw [Running.runs_lift, mapError_eq_ok] at runs
  exact runs

theorem runs_saveReport {verbose : Bool} {report : Report} {path : String} {u : Unit}
    (runs : Runs (saveReport around verbose report path) s u t) :
    s.tree.writeDeep path (report.toJson around.timestamp).pretty = .ok t.tree := by
  unfold saveReport at runs
  simp only [runs_bind, Running.runs_change, Running.runs_say] at runs
  obtain ⟨_, _, ⟨between, made, rfl⟩, _, _, ⟨after, written, rfl⟩, rfl⟩ := runs
  rw [Running.said_tree]
  exact FileTree.writeDeep_eq_ok.2 ⟨between, made, written⟩

/-- The stages of a run that preprocesses. -/
theorem runs_preprocess {output : String} {force : Bool} {report : Report}
    (runs : Runs (preprocess around i config output force) s report t) :
    ∃ (k : Settings) (v : Survey) (state : RunState), connecting around config s.tree = .ok k ∧
      v.Begins i config force s.tree ∧ report = v.report k ∧
      v.Writes k i.verbose output s.tree state t.tree := by
  unfold preprocess at runs
  dsimp only at runs
  obtain ⟨state, _, loading, onward⟩ := runs_bind.1 runs
  obtain ⟨loaded, rfl⟩ := runs_loadState_loaded.1 loading
  obtain ⟨files, _, finding, reading⟩ := runs_bind.1 onward
  obtain ⟨found, rfl⟩ := SourceFile.runs_readAll.1 finding
  obtain ⟨marks, _, marking, checking⟩ := runs_bind.1 reading
  obtain ⟨marked, rfl⟩ := (Running.runs_mapM runs_staleness).1 marking
  let v : Survey := ⟨state, files, marks⟩
  obtain ⟨_, _, said, saying⟩ := runs_bind.1 checking
  obtain rfl := Running.runs_say.1 said
  obtain ⟨_, s₁, running, units⟩ := runs_bind.1 saying
  obtain ⟨k, connects, rfl, kept⟩ := runs_runUnits running
  rw [Running.said_tree] at connects kept
  obtain rfl := connecting_config connects
  obtain ⟨state', _, stores, storing⟩ := runs_bind.1 units
  obtain ⟨generated, _, generating, generation⟩ := runs_bind.1 storing
  obtain ⟨generates, rfl⟩ := runs_generate generating
  obtain ⟨_, _, writing, telling⟩ := runs_bind.1 generation
  obtain ⟨tree₃, writes, rfl⟩ := Running.runs_writeAll.1 writing
  obtain ⟨_, _, said', closing⟩ := runs_bind.1 telling
  obtain rfl := Running.runs_say.1 said'
  obtain ⟨_, _, saving, ending⟩ := runs_bind.1 closing
  obtain ⟨tree₄, saves, rfl⟩ := Running.runs_change.1 saving
  rw [Running.said_tree] at saves
  obtain ⟨_, _, reports, last⟩ := runs_bind.1 ending
  obtain ⟨rfl, rfl⟩ := runs_pure.1 last
  have reported := runs_saveReport reports
  refine ⟨k, v, state', connects, ⟨loaded, found, marked⟩, rfl, ?_⟩
  exact ⟨s₁, _, generated, tree₃, tree₄, _, kept, stores, generates, writes, saves, reported⟩

/-- The configuration of a run, before it is overridden. -/
def loaded (i : Invocation) (tree : FileTree) : Except CommandError Config :=
  match i.config with
  | some path => (Config.load path tree).mapError .ofConfig
  | none =>
      if tree.holds Config.fileName then (Config.load Config.fileName tree).mapError .ofConfig
      else .ok { ({} : Config) with projectRoot := tree.home }

theorem runs_loadConfig (runs : Runs (loadConfig i) s config t) :
    loaded i s.tree = .ok config ∧ t.tree = s.tree := by
  unfold loadConfig at runs
  unfold loaded
  obtain ⟨_, _, found, rest⟩ := runs_bind.1 runs
  obtain ⟨rfl, rfl⟩ := Running.runs_get.1 found
  dsimp only at rest
  cases named : i.config with
  | some path =>
      rw [named] at rest
      obtain ⟨read, rfl⟩ := Running.runs_lift.1 rest
      exact ⟨read, rfl⟩
  | none =>
      rw [named] at rest
      dsimp only at rest ⊢
      split at rest
      · next holds =>
        obtain ⟨read, rfl⟩ := Running.runs_lift.1 rest
        rw [if_pos holds]
        exact ⟨read, rfl⟩
      · next missing =>
        obtain ⟨_, _, said, last⟩ := runs_bind.1 rest
        obtain rfl := Running.runs_say.1 said
        obtain ⟨rfl, rfl⟩ := runs_pure.1 last
        rw [if_neg missing]
        exact ⟨rfl, Running.said_tree _ _ _⟩

/-- The settings of a run. -/
def settings (around : Surroundings) (i : Invocation) (tree : FileTree) :
    Except CommandError Settings := do
  let config ← loaded i tree
  connecting around (config.override i (databaseVariable? around tree)) tree

/-- The stages of a whole run that preprocesses. -/
theorem runs_invocation {output : String} {report : Report}
    (task : i.task = .preprocess output false)
    (runs : Runs (runInvocation around i) s report t) :
    ∃ (k : Settings) (v : Survey) (state : RunState), settings around i s.tree = .ok k ∧
      v.Of i k.config s.tree ∧ report = v.report k ∧
      v.Writes k i.verbose output s.tree state t.tree := by
  unfold runInvocation at runs
  obtain ⟨_, _, found, rest⟩ := runs_bind.1 runs
  obtain ⟨rfl, rfl⟩ := Running.runs_get.1 found
  obtain ⟨config, _, configured, rest'⟩ := runs_bind.1 rest
  obtain ⟨read, same⟩ := runs_loadConfig configured
  obtain ⟨_, _, said, last⟩ := runs_bind.1 rest'
  obtain rfl := Running.runs_say.1 said
  rw [task] at last
  obtain ⟨k, v, state, connects, begins, reported, writes⟩ := runs_preprocess last
  rw [Running.said_tree, same] at connects begins writes
  obtain same := connecting_config connects
  refine ⟨k, v, state, ?_, same ▸ begins.of, reported, writes⟩
  unfold settings
  rw [read]
  exact connects

end Command

end SqlUnits
