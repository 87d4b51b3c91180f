import SqlUnits.Proofs.Project.Artifacts
import SqlUnits.Proofs.Project.Following
import SqlUnits.Proofs.Project.Skipping
/-!
Runs that check only what has changed. What was made of a source once is what would be made of it
now, as long as the database answers alike: so a run that skips sources leaves the same code and the
same sources as one that checks all of them.
-/

namespace SqlUnits

variable {R : Connection → Connection → Prop} {kept : Database → Prop}

namespace Preprocessor

variable {p : Preprocessor} {source' : ConnectionSource} {file : SourceFile} {r r' : UnitResult}

theorem Makes.of (makes : p.Makes kept file r) : UnitResult.Of file r := by
  obtain ⟨run, _, _, rfl⟩ := makes
  exact p.attempt_result run file _

/-- Databases that answer alike make no difference to what is written and to the artifact. -/
theorem Makes.alike (repeats : p.checker.Repeats R) (opens : p.source.RepeatedBy R kept source')
    (back : source'.RepeatedBy R kept p.source) (makes : p.Makes kept file r)
    (makes' : ({ p with source := source' } : Preprocessor).Makes kept file r') :
    r'.rewritten = r.rewritten ∧ r'.typed = r.typed := by
  cases written : r.rewritten with
  | some text =>
      rw [makes.follows repeats opens makes' written]
      exact ⟨written, rfl⟩
  | none =>
      cases written' : r'.rewritten with
      | some text =>
          obtain rfl : r = r' := Makes.follows (p := { p with source := source' })
            repeats back makes' makes written'
          cases written.symm.trans written'
      | none =>
          have failed {r : UnitResult} (of : UnitResult.Of file r) (none_ : r.rewritten = none) :
              r.typed = none := by
            cases of with
            | passed _ _ _ some_ => cases none_.symm.trans some_
            | failed _ none_ => exact none_
          exact ⟨rfl, (failed makes'.of written').trans (failed makes.of written).symm⟩

end Preprocessor

theorem Settings.preprocessor_eq {k k' : Settings} (config : k'.config = k.config) :
    k'.preprocessor = { k.preprocessor with source := k'.source } := by
  unfold preprocessor
  rw [config]

namespace Command

open FileTree (SameTexts)

/-- The databases that some runs open, what their checks make of these, and the connections to
them: each one repeats any other. -/
structure Answers (R : Connection → Connection → Prop) (kept : Database → Prop)
    (runs : List (Settings × Survey)) : Prop where
  repeats : Connection.Repeats R
  found : ∀ run ∈ runs, kept (run.1.stored.getD {})
  keeps : ∀ run ∈ runs, run.1.preprocessor.Keeps kept run.2.stale
  opens : ∀ run ∈ runs, ∀ other ∈ runs, run.1.source.RepeatedBy R kept other.1.source

section

variable {k k' : Settings} {v v' : Survey} {i : Invocation} {config : Config} {force : Bool}
  {outDir : String} {state : RunState} {tree next : FileTree} {made : List Made}

/-- A run that is forced skips nothing. -/
theorem Survey.Begins.forced (begins : v.Begins i config true tree) :
    v.stale = v.files ∧ v.fresh = [] := by
  have none_ : v.state = {} := begins.state
  have marks := begins.marks
  rw [none_] at marks
  unfold Survey.stale Survey.fresh
  generalize v.files = files at marks
  generalize v.marks = marks' at marks
  induction marks with
  | nil => exact ⟨rfl, rfl⟩
  | cons one _ ih =>
      cases one with
      | stale _ => exact ⟨congrArg _ ih.1, ih.2⟩
      | fresh some_ _ _ => cases some_

/-- A run that is forced, or finds no state, knows of no other one. -/
theorem Survey.Begins.unknown (begins : v.Begins i config force tree)
    (begun : force = true ∨ tree.holds (config.resolve RunState.fileName) = false) :
    v.state = {} := by
  have loaded := begins.state
  cases force with
  | true => exact loaded
  | false =>
      rcases loaded with ⟨_, none_⟩ | ⟨_, read, _⟩
      · exact none_
      · cases begun with
        | inl forced => cases forced
        | inr missing => cases missing.symm.trans (holds_of_read read)

theorem Survey.Begins.stale_sublist (begins : v.Begins i config force tree) :
    v.stale.Sublist v.files :=
  Survey.stale_of_marks begins.marks ▸ List.filter_sublist

/-- The units that a run makes have different names. -/
theorem Survey.typed_apart (apart : v.stale.Pairwise SourceFile.NamedApart) :
    ((v.results k).filterMap (·.2.typed)).Pairwise fun a b => a.unit ≠ b.unit := by
  rw [List.pairwise_filterMap]
  refine (results_apart apart).imp_of_mem
    fun {e e'} member member' named typed found typed' found' => ?_
  obtain ⟨_, unit, inside, name⟩ := results_builds member typed found
  obtain ⟨_, unit', inside', name'⟩ := results_builds member' typed' found'
  rw [name, name']
  exact named unit inside unit' inside'

theorem Survey.code_extension (all : v.fresh = []) {files : List GeneratedFile}
    (made : v.code k = .ok files) :
    ∀ file ∈ files, Path.extension? file.path = some Code.extension := by
  refine Code.generate_extension made fun unit member => ?_
  rw [List.mem_mergeSort, typed_eq, all] at member
  obtain ⟨e, among, found⟩ := List.mem_filterMap.1 member
  obtain ⟨_, own, inside, name⟩ := results_builds among unit found
  rw [name]
  exact SourceUnit.scan_isName (SourceFile.mem_unit?.1 inside)

theorem artifactPath_injective {unit unit' : String}
    (same : artifactPath unit = artifactPath unit') : unit = unit' := by
  unfold artifactPath at same
  rwa [String.append_left_inj, String.append_right_inj] at same

/-- A run makes one unit of a name. -/
theorem Survey.made_path_eq (apart : v.stale.Pairwise SourceFile.NamedApart) {m m' : Made}
    (member : m ∈ v.made k) (member' : m' ∈ v.made k) (same : m.typed.unit = m'.typed.unit) :
    m.path = m'.path := by
  obtain ⟨e, among, path, _, artifact⟩ := mem_made.1 member
  obtain ⟨e', among', path', _, artifact'⟩ := mem_made.1 member'
  obtain ⟨_, unit, inside, name⟩ := results_builds among m.typed artifact
  obtain ⟨_, unit', inside', name'⟩ := results_builds among' m'.typed artifact'
  have symm : Std.Symm fun e e' : SourceFile × UnitResult => e.1.NamedApart e'.1 :=
    ⟨fun _ _ => SourceFile.NamedApart.symm⟩
  by_contra different
  have named := (results_apart apart).forall among among' fun one =>
    different (path.symm.trans ((congrArg (·.1.path) one).trans path'))
  exact named unit inside unit' inside' (name.symm.trans (same.trans name'))

/-- A source that is skipped has the digest of what it was left with when its artifact was made. -/
theorem Accounts.fresh (accounts : Accounts outDir made state tree)
    (proper : ∀ m ∈ made, m.Proper)
    (single : ∀ m ∈ made, ∀ m' ∈ made, m.typed.unit = m'.typed.unit → m.path = m'.path)
    {file : SourceFile} {typed : TypedUnit}
    (marked : Marked state outDir tree file (.fresh file.path typed)) :
    ∃ m ∈ made, m.path = file.path ∧ m.typed = typed ∧
      Digest.ofText file.text = Digest.ofText m.text := by
  cases marked with
  | fresh some_ read known =>
      obtain ⟨entry, recorded, digest, rfl, _⟩ := artifact?_eq_some.1 some_
      obtain ⟨own, found, entryOf⟩ := accounts.recorded file.path entry recorded
      have ownPath : own.path = file.path := by simpa using List.find?_some found
      obtain ⟨m, member, path, same, read'⟩ := accounts.made_eq recorded fun last latest => by
        have artifact : last.entry.typed = entry.typed := by simpa using List.find?_some latest
        rw [← ownPath]
        refine single last (List.mem_of_find?_eq_some latest) own
          (List.mem_of_find?_eq_some found) (artifactPath_injective ?_)
        exact artifact.trans (congrArg UnitState.typed entryOf).symm
      cases read.symm.trans read'
      cases known.symm.trans (TypedUnit.read_toJson (proper m member).storable)
      exact ⟨m, member, path, rfl, digest.symm.trans (congrArg UnitState.digest same).symm⟩

/-- What a run that knew of no other one has recorded, it has made. -/
theorem Ran.accounts {around : Surroundings} {output : String} {before after : FileTree}
    (ran : Ran around i config output force before after k v) (unknown : v.state = {})
    (fits : ∀ file ∈ v.stale, file.Fits)
    (database : NoArtifact (config.resolve config.outDir) before (config.resolve config.url))
    (report : NoArtifact (config.resolve config.outDir) before output)
    (place : before.locate? output ≠ before.locate? (config.resolve RunState.fileName)) :
    ∃ state, StateAt (config.resolve RunState.fileName) after state ∧
      Accounts (config.resolve config.outDir) (v.made k) state after := by
  obtain rfl := connecting_config ran.connects
  obtain ⟨state, writes⟩ := ran.writes
  have start : Accounts (k.config.resolve k.config.outDir) [] v.state before := by
    rw [unknown]
    exact .empty _ _ _
  obtain ⟨accounts, saved⟩ := start.writes ran.begins writes rfl nofun fits database report place
  rw [List.append_nil] at accounts
  exact ⟨state, .inr ⟨_, saved, (RunState.load_toJson accounts.sorted).symm⟩, accounts⟩

namespace Answers

variable {runs : List (Settings × Survey)} (answers : Answers R kept runs)
  (member : (k, v) ∈ runs) (member' : (k', v') ∈ runs)

include answers member

/-- A run makes of a source what the source comes to on a database that is kept to. -/
theorem makes (apart : v.stale.Pairwise SourceFile.NamedApart) :
    List.Forall₂ (k.preprocessor.Makes kept) v.stale (k.run v.stale).units :=
  k.preprocessor.run_makes (answers.keeps _ member) apart (answers.found _ member)

include member'

/-- Two runs make the same of a source. -/
theorem alike (config : k'.config = k.config) {file : SourceFile} {r r' : UnitResult}
    (makes : k.preprocessor.Makes kept file r) (makes' : k'.preprocessor.Makes kept file r') :
    r'.rewritten = r.rewritten ∧ r'.typed = r.typed := by
  rw [Settings.preprocessor_eq config] at makes'
  exact makes.alike (Checker.ofDialect_repeats answers.repeats _)
    (answers.opens _ member _ member') (answers.opens _ member' _ member) makes'

/-- What a run made of a source, another one makes of the text that the source was left with. -/
theorem again (config : k'.config = k.config) (apart : v.stale.Pairwise SourceFile.NamedApart)
    {m : Made} (made : m ∈ v.made k)
    (columns : ∀ row ∈ m.typed.rows, row.declared = false → row.fields ≠ []) {r' : UnitResult}
    (makes' : k'.preprocessor.Makes kept ⟨m.path, m.text⟩ r') :
    r'.rewritten = some m.text ∧ r'.typed.map (·.unmarked) = some m.typed.unmarked := by
  obtain ⟨⟨file, r⟩, among, path, written, artifact⟩ := Survey.mem_made.1 made
  have makes : k.preprocessor.Makes kept file r :=
    (List.forall₂_iff_zip.1 (answers.makes member apart)).2 among
  rw [Settings.preprocessor_eq config, ← path] at makes'
  obtain ⟨typed', rfl, unmarked⟩ := makes.again Registry.hasBuiltins
    (Checker.ofDialect_repeats answers.repeats _) (answers.opens _ member _ member)
    (answers.opens _ member _ member') written artifact columns makes'
  exact ⟨written, congrArg some unmarked⟩

end Answers

end

/-- Edits of files that leave the state and the artifacts that it names alone. -/
structure Edits (config : Config) (before after : FileTree) : Prop where
  state : after.node (config.resolve RunState.fileName) =
    before.node (config.resolve RunState.fileName)
  artifacts : ∀ state, StateAt (config.resolve RunState.fileName) before state →
    ∀ path entry, state.units.lookup path = some entry →
      after.node (Path.join (config.resolve config.outDir) entry.typed) =
        before.node (Path.join (config.resolve config.outDir) entry.typed)

/-- A run that checks only what has changed leaves what one that checks all sources leaves. Both
follow the edits after a run that knew of no earlier one; the names of units are distinct each time,
and the databases that the runs open answer alike, with a column for every row. Then they generate
the same files of code, and each of these and each source has the same text after both. -/
theorem incremental_eq_full {around₁ around₂ around₃ : Surroundings} {i₁ i₂ i₃ : Invocation}
    {config : Config} {output₁ output₂ output₃ : String} {force : Bool}
    {before once edited incremental full : FileTree} {k₁ k₂ k₃ : Settings} {v₁ v₂ v₃ : Survey}
    (first : Ran around₁ i₁ config output₁ force before once k₁ v₁)
    (begun : force = true ∨ before.holds (config.resolve RunState.fileName) = false)
    (edits : Edits config once edited)
    (second : Ran around₂ i₂ config output₂ false edited incremental k₂ v₂)
    (third : Ran around₃ i₃ config output₃ true edited full k₃ v₃)
    (all : SourceFile.roots i₃ config = SourceFile.roots i₂ config)
    (apart₁ : v₁.files.Pairwise SourceFile.NamedApart)
    (apart₂ : v₂.files.Pairwise SourceFile.NamedApart)
    (answers : Answers R kept [(k₁, v₁), (k₂, v₂), (k₃, v₃)])
    (columns : ∀ m ∈ v₁.made k₁, ∀ row ∈ m.typed.rows, row.declared = false → row.fields ≠ [])
    (digests : ∀ m ∈ v₁.made k₁, ∀ file ∈ v₂.files,
      Digest.ofText file.text = Digest.ofText m.text → file.text = m.text)
    (fits : ∀ file ∈ v₁.stale, file.Fits)
    (database₁ : NoArtifact (config.resolve config.outDir) before (config.resolve config.url))
    (report₁ : NoArtifact (config.resolve config.outDir) before output₁)
    (place₁ : before.locate? output₁ ≠ before.locate? (config.resolve RunState.fileName))
    (database : NoCode edited (config.resolve config.url)) (report₂ : NoCode edited output₂)
    (report₃ : NoCode edited output₃) :
    v₃.code k₃ = v₂.code k₂ ∧
      (∀ files, v₂.code k₂ = .ok files → ∀ file ∈ files, ∀ text,
        incremental.read (Path.join (config.resolve config.outDir) file.path) = .ok text ↔
          full.read (Path.join (config.resolve config.outDir) file.path) = .ok text) ∧
      ∀ path, SourceFile.isSource path = true → ∀ text,
        incremental.read path = .ok text ↔ full.read path = .ok text := by
  obtain rfl := connecting_config first.connects
  have config₂ : k₂.config = k₁.config := connecting_config second.connects
  have config₃ : k₃.config = k₁.config := connecting_config third.connects
  have in₁ : (k₁, v₁) ∈ [(k₁, v₁), (k₂, v₂), (k₃, v₃)] := by simp
  have in₂ : (k₂, v₂) ∈ [(k₁, v₁), (k₂, v₂), (k₃, v₃)] := by simp
  have in₃ : (k₃, v₃) ∈ [(k₁, v₁), (k₂, v₂), (k₃, v₃)] := by simp
  -- The state tells the incremental run what the first one has made.
  have stale₁ := apart₁.sublist first.begins.stale_sublist
  obtain ⟨state, saved, recorded⟩ :=
    first.accounts (first.begins.unknown begun) fits database₁ report₁ place₁
  have found : v₂.state = state :=
    StateAt.unique second.begins.state ((StateAt.congr edits.state).2 saved)
  have accounts := recorded.edited (edits.artifacts state saved)
  rw [← found] at accounts
  -- The other run checks all sources.
  obtain ⟨stale₃, fresh₃⟩ := third.begins.forced
  have files : v₃.files = v₂.files := (all ▸ third.begins.files).unique second.begins.files
  rw [files] at stale₃
  have apart₃ : v₃.stale.Pairwise SourceFile.NamedApart := stale₃ ▸ apart₂
  have here := answers.makes in₂ (apart₂.sublist second.begins.stale_sublist)
  have there := answers.makes in₃ apart₃
  rw [stale₃] at there
  have beside : Beside v₂.marks (v₂.results k₂) (v₃.results k₃) := by
    unfold Survey.results
    rw [stale₃]
    refine beside_of_results second.begins.marks here there ?_ ?_
    · intro file member r r' makes makes'
      exact answers.alike in₂ in₃ (config₃.trans config₂.symm) makes makes'
    · intro file member typed marked r' makes'
      obtain ⟨m, made, path, rfl, digest⟩ := accounts.fresh (Survey.made_proper fits)
        (fun m made m' made' => Survey.made_path_eq stale₁ made made') marked
      have text : file.text = m.text := digests m made file member digest
      have same : (⟨m.path, m.text⟩ : SourceFile) = file := by rw [path, ← text]
      rw [text]
      exact answers.again in₁ in₃ config₃ stale₁ made (columns m made) (same ▸ makes')
  have code : v₃.code k₃ = v₂.code k₂ := Survey.code_eq beside fresh₃
    (Survey.typed_apart apart₃) (config₃.trans config₂.symm)
  obtain ⟨_, writes⟩ := second.writes
  obtain ⟨_, writes'⟩ := third.writes
  have texts : SameTexts CodePlace incremental full := Survey.same_texts beside code
    (config₃.trans config₂.symm) writes writes' (config₂.symm ▸ database) report₂ report₃
  refine ⟨code, fun files made file member => ?_, fun path source => read_iff texts (.inl source)⟩
  have extension := Survey.code_extension fresh₃ (code.trans made) file member
  exact read_iff texts (.inr (Path.extension?_join extension _))

/-! One source without types, checked once, then skipped, and checked again. -/

/-- A source without any types. -/
def bareText : String :=
  "unit A row R fn m()\x7bone R\x7bSELECT 1 AS n\x7d\x7d"

def bare : FileTree := ⟨"/w", [(["a.sqlp"], .text bareText)]⟩

/-- What is there once it was checked. -/
def bareOnce : FileTree := leftBy "/w/a.sqlp" false bare

/-- The source with its types. -/
def filledText : String :=
  "unit A row R(n: long) fn m()\x7bone R\x7bSELECT 1 AS n\x7d\x7d"

def bareTyped : TypedUnit :=
  ⟨"A", "/w/a.sqlp", [⟨"R", false, false, [⟨"n", .value .long, .unknown⟩]⟩],
    [⟨"m", [],
      [{ convention := "one", line := 1, sql := some "SELECT 1 AS n", row := some "R" }]⟩]⟩

def bareState : RunState := ⟨[("/w/a.sqlp", ⟨Digest.ofText filledText, "typed/A.json"⟩)]⟩

theorem bare_once :
    (((alone "/w/a.sqlp" false).run).run { tree := bare }).1.toOption.isSome = true ∧
      (bareOnce.read "/w/.sqlprobe-state.json").toOption = some bareState.toJson.pretty ∧
      (bareOnce.read "/w/src/generated/typed/A.json").toOption = some bareTyped.toJson.pretty ∧
      (SourceFile.discover ["/w/a.sqlp"] bareOnce).toOption = some ["/w/a.sqlp"] ∧
      (bareOnce.read "/w/a.sqlp").toOption = some filledText ∧
      (((alone "/w/a.sqlp" true).run).run { tree := bareOnce }).1.toOption.isSome = true := by
  decide +kernel

theorem bareTyped_storable : bareTyped.Storable where
  rows := by
    intro r member f inside
    obtain rfl := List.mem_singleton.1 member
    obtain rfl := List.mem_singleton.1 inside
    exact ⟨"long", by decide⟩
  methods := by
    intro m member
    obtain rfl := List.mem_singleton.1 member
    refine ⟨nofun, fun s inside => ?_⟩
    obtain rfl := List.mem_singleton.1 inside
    exact ⟨nofun, by decide +kernel⟩

/-- It is skipped when the run is repeated. -/
theorem bare_skipped :
    (((alone "/w/a.sqlp" false).run).run { tree := bareOnce }).1.toOption.isSome = true := by
  obtain ⟨_, saved, artifact, found, text, _⟩ := bare_once
  have there := eq_ok_of_toOption artifact
  have loads : Runs (loadState "/w/.sqlprobe-state.json" false) { tree := bareOnce } bareState
      { tree := bareOnce } :=
    runs_loadState.2 ⟨stateAt_singleton saved, rfl⟩
  have reads : Runs (SourceFile.readAll
        { task := .preprocess "report.txt" false, paths := ["/w/a.sqlp"] }
        { projectRoot := "/w", url := ":memory:" })
      { tree := bareOnce } [⟨"/w/a.sqlp", filledText⟩] { tree := bareOnce } :=
    SourceFile.runs_readAll.2 ⟨⟨_, eq_ok_of_toOption found,
      .cons ⟨rfl, eq_ok_of_toOption text⟩ .nil⟩, rfl⟩
  have marks : Runs ([⟨"/w/a.sqlp", filledText⟩].mapM (staleness bareState "/w/src/generated"))
      { tree := bareOnce } [.fresh "/w/a.sqlp" bareTyped] { tree := bareOnce } :=
    (Running.runs_mapM runs_staleness).2 ⟨.cons (.fresh (artifact?_eq_some.2
      ⟨_, rfl, rfl, rfl, holds_of_read there⟩) there
      (TypedUnit.read_toJson bareTyped_storable)) .nil, rfl⟩
  let ends (o : Except CommandError Report × Session) : Prop := o.1.toOption.isSome = true
  show ends (((alone "/w/a.sqlp" false).run).run { tree := bareOnce })
  unfold alone preprocess
  dsimp only
  apply outcome_bind loads
  apply outcome_bind reads
  apply outcome_bind marks
  unfold ends
  decide +kernel

/-- The run that skips the source leaves the same as the one that checks it. -/
theorem incremental_eq_full_bare :
    let config : Config := { projectRoot := "/w", url := ":memory:" }
    let i (force : Bool) : Invocation :=
      { task := .preprocess "report.txt" force, paths := ["/w/a.sqlp"] }
    let incremental := leftBy "/w/a.sqlp" false bareOnce
    let full := leftBy "/w/a.sqlp" true bareOnce
    ∃ k v v', Ran {} (i false) config "report.txt" false bareOnce incremental k v ∧
      Ran {} (i true) config "report.txt" true bareOnce full k v' ∧
      v.fresh = [("/w/a.sqlp", bareTyped)] ∧ v'.stale = [⟨"/w/a.sqlp", filledText⟩] ∧
      v'.code k = v.code k ∧
      (∀ files, v.code k = .ok files → ∀ file ∈ files, ∀ text,
        incremental.read (Path.join "/w/src/generated" file.path) = .ok text ↔
          full.read (Path.join "/w/src/generated" file.path) = .ok text) ∧
      ∀ path, SourceFile.isSource path = true → ∀ text,
        incremental.read path = .ok text ↔ full.read path = .ok text := by
  intro config i incremental full
  let k : Settings := ⟨config, .memory ⟨0⟩ none, none⟩
  let file : SourceFile := ⟨"/w/a.sqlp", bareText⟩
  let filled : SourceFile := ⟨"/w/a.sqlp", filledText⟩
  let v₁ : Survey := ⟨{}, [file], [.stale file]⟩
  let v₂ : Survey := ⟨bareState, [filled], [.fresh "/w/a.sqlp" bareTyped]⟩
  let v₃ : Survey := ⟨{}, [filled], [.stale filled]⟩
  have start : bare.holds "/w/.sqlprobe-state.json" = false ∧
      (SourceFile.discover ["/w/a.sqlp"] bare).toOption = some ["/w/a.sqlp"] ∧
      (bare.read "/w/a.sqlp").toOption = some bareText ∧
      bare.locate? "report.txt" ≠ bare.locate? "/w/.sqlprobe-state.json" := by
    decide +kernel
  have made : (v₁.made k).all (fun m => m.text == filledText &&
      m.typed.rows.all fun row => row.declared || !row.fields.isEmpty) = true := by
    decide +kernel
  have directory : config.resolve config.outDir = "/w/src/generated" := by decide +kernel
  have statePath : config.resolve RunState.fileName = "/w/.sqlprobe-state.json" := by
    decide +kernel
  obtain ⟨ends, saved, artifact, found, text, checks⟩ := bare_once
  obtain ⟨missing, searched, source, place⟩ := start
  have runs' : ∃ report log log', Runs (alone "/w/a.sqlp" false) ⟨bareOnce, log⟩ report
    ⟨incremental, log'⟩ := alone_runs bare_skipped
  have runs'' : ∃ report log log', Runs (alone "/w/a.sqlp" true) ⟨bareOnce, log⟩ report
    ⟨full, log'⟩ := alone_runs checks
  have there := eq_ok_of_toOption artifact
  have loaded : StateAt "/w/.sqlprobe-state.json" bareOnce bareState := stateAt_singleton saved
  have fresh : Marked bareState "/w/src/generated" bareOnce filled
      (.fresh "/w/a.sqlp" bareTyped) :=
    .fresh (artifact?_eq_some.2 ⟨_, rfl, rfl, rfl, holds_of_read there⟩) there
      (TypedUnit.read_toJson bareTyped_storable)
  have files : SourceFile.Found ["/w/a.sqlp"] bareOnce [filled] :=
    ⟨_, eq_ok_of_toOption found, .cons ⟨rfl, eq_ok_of_toOption text⟩ .nil⟩
  have files₁ : SourceFile.Found ["/w/a.sqlp"] bare [file] :=
    ⟨_, eq_ok_of_toOption searched, .cons ⟨rfl, eq_ok_of_toOption source⟩ .nil⟩
  clear_value incremental full
  rw [← statePath] at missing loaded
  rw [← directory] at fresh
  have first : Ran {} (i false) config "report.txt" false bare bareOnce k v₁ :=
    ⟨alone_runs ends, rfl, .inl ⟨missing, rfl⟩, files₁, .cons (.stale rfl) .nil⟩
  have second : Ran {} (i false) config "report.txt" false bareOnce incremental k v₂ :=
    ⟨runs', rfl, loaded, files, .cons fresh .nil⟩
  have third : Ran {} (i true) config "report.txt" true bareOnce full k v₃ :=
    ⟨runs'', rfl, rfl, files, .cons (.stale rfl) .nil⟩
  have answers : Answers Eq (fun _ => True) [(k, v₁), (k, v₂), (k, v₃)] := by
    have one : ∀ run ∈ [(k, v₁), (k, v₂), (k, v₃)], run.1.source = .memory ⟨0⟩ none := by
      intro run member
      simp only [List.mem_cons, List.not_mem_nil, or_false] at member
      rcases member with rfl | rfl | rfl <;> rfl
    refine ⟨Connection.repeats_eq, fun _ _ => trivial, fun _ _ _ _ _ _ => trivial, ?_⟩
    intro run member other member' db db' _ _ c opened
    rw [one run member] at opened
    rw [one other member', ConnectionSource.memory_independent ⟨0⟩ none db' db]
    exact ⟨c, opened, rfl⟩
  have kept (m : Made) (member : m ∈ v₁.made k) : m.text = filledText ∧
      ∀ row ∈ m.typed.rows, row.declared = false → row.fields ≠ [] := by
    obtain ⟨text, rows⟩ := Bool.and_eq_true_iff.1 (List.all_eq_true.1 made m member)
    refine ⟨beq_iff_eq.1 text, fun row inside undeclared empty => ?_⟩
    have found := List.all_eq_true.1 rows row inside
    rw [undeclared, empty] at found
    cases found
  have fits : file.Fits := by
    unfold SourceFile.Fits
    decide +kernel
  have colon : Path.EndsWith (config.resolve config.url) ':' := ⟨by decide +kernel, by decide⟩
  have report : Path.EndsWith "report.txt" 't' := ⟨by decide +kernel, by decide⟩
  have same := incremental_eq_full first (.inr missing) ⟨rfl, fun _ _ _ _ _ => rfl⟩ second third
    rfl (List.pairwise_singleton _ _) (List.pairwise_singleton _ _) answers
    (fun m member => (kept m member).2)
    (fun m member other inside _ => by
      rw [List.mem_singleton.1 inside]
      exact (kept m member).1.symm)
    (List.forall_mem_singleton.2 fits)
    (noArtifact_of_endsWith colon (by decide)) (noArtifact_of_endsWith report (by decide))
    (statePath ▸ place) (noCode_of_endsWith colon (by decide) (by decide))
    (noCode_of_endsWith report (by decide) (by decide))
    (noCode_of_endsWith report (by decide) (by decide))
  rw [directory] at same
  exact ⟨k, v₂, v₃, second, third, rfl, rfl, same⟩

end Command

end SqlUnits
