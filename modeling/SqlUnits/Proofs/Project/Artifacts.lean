import SqlUnits.Proofs.Project.Failing
import SqlUnits.Proofs.Project.Persistence
import SqlUnits.Proofs.Project.Texts
/-!
The artifacts that the state names, over any sequence of runs. The state is kept by the paths of
sources and artifacts by the names of units, so an artifact is that of a source as long as no other
one was stored under its name.
-/

namespace SqlUnits

/-- The artifact of a unit is that of its source, under the name of the unit. -/
theorem Preprocessor.run_builds (p : Preprocessor) (files : List SourceFile)
    (stored : Option Database) :
    List.Forall₂ (fun file r => ∀ typed ∈ r.typed, typed.source = file.path ∧
      ∃ unit ∈ file.unit?, typed.unit = unit.name.name) files (p.run files stored).units := by
  refine (p.run_made files stored).imp fun file r made typed member => ?_
  obtain ⟨unit, _, _, _, read, _, rfl⟩ := made typed member
  exact ⟨SourceUnit.scan_path read, unit, SourceFile.mem_unit?.2 read, rfl⟩

namespace Command

open FileTree (SameTexts)

/-- What comes first of two kinds is one thing if it is of both kinds. -/
theorem find?_eq_find? {α : Type} {p q : α → Bool} {as : List α} {a b : α}
    (first : as.find? p = some a) (first' : as.find? q = some b) (both : q a = true)
    (both' : p b = true) : a = b := by
  induction as with
  | nil => cases first
  | cons c as ih =>
      by_cases here : p c = true
      · rw [List.find?_cons_of_pos here] at first
        cases first
        rw [List.find?_cons_of_pos both] at first'
        exact Option.some.inj first'
      · rw [List.find?_cons_of_neg here] at first
        by_cases there : q c = true
        · rw [List.find?_cons_of_pos there] at first'
          cases first'
          exact absurd both' here
        · rw [List.find?_cons_of_neg there] at first'
          exact ih first first'

/-! The places of artifacts. -/

theorem artifact_parts (outDir : String) {unit : String} (named : Scanner.IsName unit.toList) :
    ∃ start, Path.parts (Path.join outDir (artifactPath unit)) = start ++ [unit ++ ".json"] := by
  obtain ⟨start, joined⟩ := Path.parts_join outDir (artifactPath unit)
  refine ⟨start ++ ["typed"], ?_⟩
  have noSlash : '/' ∉ (unit ++ ".json").toList := by
    rw [String.toList_append, List.mem_append, not_or]
    refine ⟨fun inside => ?_, by decide⟩
    exact absurd (named.all _ inside) (by decide)
  have ends : Path.EndsWith (unit ++ ".json") 'n' :=
    Path.EndsWith.append ⟨by decide, by decide, by decide⟩ unit
  have own : Path.parts (unit ++ ".json") = [unit ++ ".json"] := Path.parts_name noSlash ends
  have typed : artifactPath unit = "typed/" ++ (unit ++ ".json") := String.append_assoc ..
  have slash : "typed/".toList = "typed".toList ++ ['/'] := rfl
  rw [joined, typed, Path.parts_append slash, own, List.append_assoc]
  rfl

/-- Where artifacts are kept. -/
def ArtifactPlace (outDir : String) (tree : FileTree) (names : List String) : Prop :=
  names ≠ [] ∧ ∃ unit : String, Scanner.IsName unit.toList ∧
    tree.locate? (Path.join outDir (artifactPath unit)) = some names

/-- No artifact is kept at a path. -/
def NoArtifact (outDir : String) (tree : FileTree) (path : String) : Prop :=
  ∀ names, tree.locate? path = some names → ¬ArtifactPlace outDir tree names

variable {outDir path : String} {tree other next before between after : FileTree}

theorem ArtifactPlace.congr (home : other.home = tree.home) {names : List String} :
    ArtifactPlace outDir other names ↔ ArtifactPlace outDir tree names := by
  unfold ArtifactPlace
  simp only [FileTree.locate?_congr home]

theorem NoArtifact.congr (home : other.home = tree.home) :
    NoArtifact outDir other path ↔ NoArtifact outDir tree path := by
  unfold NoArtifact
  simp only [FileTree.locate?_congr home, ArtifactPlace.congr home]

theorem json_ne_up (unit : String) : unit ++ ".json" ≠ ".." := by
  intro same
  have ends := congrArg List.getLast? (congrArg String.toList same)
  rw [String.toList_append, List.getLast?_append] at ends
  cases ends

/-- A path whose last part is not that of an artifact. -/
theorem noArtifact_of_parts {start : List String} {last : String}
    (shape : Path.parts path = start ++ [last]) (named : last ≠ "..")
    (apart : ∀ unit : String, Scanner.IsName unit.toList → last ≠ unit ++ ".json") :
    NoArtifact outDir tree path := by
  rintro names located ⟨some_, unit, isName, located'⟩
  obtain ⟨start', shape'⟩ := artifact_parts outDir isName
  exact apart unit isName
    (FileTree.last_eq_of_locate? shape shape' named (json_ne_up unit) located located' some_)

theorem noArtifact_of_endsWith {c : Char} (ends : Path.EndsWith path c) (other : c ≠ 'n') :
    NoArtifact outDir tree path := by
  obtain ⟨start, last, shape, lastEnds⟩ := Path.parts_last ends
  refine noArtifact_of_parts shape ?_ fun unit _ same => ?_
  · rintro rfl
    exact lastEnds.2.2 (Option.some.inj lastEnds.1).symm
  · have ends := lastEnds.1
    rw [same, String.toList_append, List.getLast?_append] at ends
    exact other (Option.some.inj ends).symm

theorem noArtifact_of_source (source : SourceFile.isSource path = true) :
    NoArtifact outDir tree path := by
  rintro names located ⟨some_, unit, _, located'⟩
  have isSource := FileTree.locate?_source source located some_
  rw [FileTree.locate?_other (artifactPath_endsWith outDir unit) (by decide) located'] at isSource
  cases isSource

theorem noArtifact_of_state (root : String) :
    NoArtifact outDir tree (Path.join root RunState.fileName) := by
  obtain ⟨start, shape⟩ := Path.parts_join root RunState.fileName
  have own : Path.parts RunState.fileName = [RunState.fileName] := by decide
  rw [own] at shape
  refine noArtifact_of_parts shape (by decide) fun unit named same => ?_
  have chars : ".sqlprobe-state".toList = unit.toList := by
    have whole := congrArg String.toList same
    rw [String.toList_append] at whole
    exact List.append_cancel_right whole
  exact absurd (named.all '.' (by rw [← chars]; decide)) (by decide)

/-- Artifacts of units with different names are kept apart. -/
theorem artifact_apart {unit unit' : String} (named : Scanner.IsName unit.toList)
    (named' : Scanner.IsName unit'.toList) (different : artifactPath unit ≠ artifactPath unit')
    {names : List String} (some_ : names ≠ [])
    (located : tree.locate? (Path.join outDir (artifactPath unit)) = some names) :
    tree.locate? (Path.join outDir (artifactPath unit')) ≠ some names := by
  intro located'
  obtain ⟨start, shape⟩ := artifact_parts outDir named
  obtain ⟨start', shape'⟩ := artifact_parts outDir named'
  have same := FileTree.last_eq_of_locate? shape shape' (json_ne_up unit) (json_ne_up unit')
    located located' some_
  refine different ?_
  unfold artifactPath
  rw [String.append_assoc, same, ← String.append_assoc]

/-! What runs have made. -/

/-- A unit as a run has made it: the path of its source, the text that the source was left with, and
the artifact. -/
structure Made where
  path : String
  text : String
  typed : TypedUnit

namespace Made

/-- How it is recorded. -/
def entry (m : Made) : UnitState :=
  ⟨Digest.ofText m.text, artifactPath m.typed.unit⟩

/-- What is made of a source that passed. -/
def of? (e : SourceFile × UnitResult) : Option Made := do
  pure ⟨e.1.path, ← e.2.rewritten, ← e.2.typed⟩

/-- What was stored last under the name of an artifact; the latest stands first. -/
def latest? (made : List Made) (artifact : String) : Option Made :=
  made.find? (·.entry.typed == artifact)

/-- The artifact is that of the source, its unit has a name, and it can be stored. -/
structure Proper (m : Made) : Prop where
  source : m.typed.source = m.path
  named : Scanner.IsName m.typed.unit.toList
  storable : m.typed.Storable

theorem of?_eq_some {e : SourceFile × UnitResult} {m : Made} :
    of? e = some m ↔
      e.1.path = m.path ∧ e.2.rewritten = some m.text ∧ e.2.typed = some m.typed := by
  obtain ⟨path, text, typed⟩ := m
  unfold of?
  cases e.2.rewritten <;> cases e.2.typed <;> simp

end Made

/-- What a run makes, the latest first. -/
def Survey.made (v : Survey) (k : Settings) : List Made :=
  ((v.results k).filterMap Made.of?).reverse

variable {made : List Made} {state state' : RunState}

/-- What is recorded was made: an entry is that of what was made last of its source, and the file of
its artifact is as it was stored last. -/
structure Accounts (outDir : String) (made : List Made) (state : RunState) (tree : FileTree) :
    Prop where
  sorted : RunState.Sorted state.units
  recorded : ∀ path entry, state.units.lookup path = some entry →
    ∃ m, made.find? (·.path == path) = some m ∧ m.entry = entry
  stored : ∀ path entry, state.units.lookup path = some entry →
    ∃ m, Made.latest? made entry.typed = some m ∧
      tree.read (Path.join outDir entry.typed) = .ok m.typed.toJson.pretty

theorem Accounts.empty (outDir : String) (made : List Made) (tree : FileTree) :
    Accounts outDir made {} tree where
  sorted := .nil
  recorded _ _ known := nomatch known
  stored _ _ known := nomatch known

/-- The artifact of an entry keeps its text if nothing is written to its place. -/
theorem Accounts.read (accounts : Accounts outDir made state tree) {path : String}
    {entry : UnitState} (known : state.units.lookup path = some entry)
    {at_ : List String → Prop} (same : SameTexts at_ tree next)
    (inside : ∀ m ∈ made, m.entry = entry → ∀ names, names ≠ [] →
      tree.locate? (Path.join outDir (artifactPath m.typed.unit)) = some names → at_ names) :
    ∃ m, Made.latest? made entry.typed = some m ∧
      next.read (Path.join outDir entry.typed) = .ok m.typed.toJson.pretty := by
  obtain ⟨own, found, rfl⟩ := accounts.recorded path entry known
  obtain ⟨m, last, read⟩ := accounts.stored path _ known
  obtain ⟨names, located, text⟩ := FileTree.read_iff_textAt?.1 read
  have some_ : names ≠ [] := by
    rintro rfl
    cases text
  have kept := same.texts names
    (inside own (List.mem_of_find?_eq_some found) rfl names some_ located)
  exact ⟨m, last, FileTree.read_iff_textAt?.2
    ⟨names, (same.locate? _).trans located, kept.trans text⟩⟩

theorem Accounts.later (accounts : Accounts outDir made state tree)
    (proper : ∀ m ∈ made, m.Proper) (same : SameTexts (ArtifactPlace outDir tree) tree next) :
    Accounts outDir made state next where
  sorted := accounts.sorted
  recorded := accounts.recorded
  stored _ _ known := accounts.read known same fun m member _ _ some_ located =>
    ⟨some_, m.typed.unit, (proper m member).named, located⟩

/-- Where the artifacts that are named are left alone, anything may change. -/
theorem Accounts.edited (accounts : Accounts outDir made state tree)
    (artifacts : ∀ path entry, state.units.lookup path = some entry →
      next.node (Path.join outDir entry.typed) = tree.node (Path.join outDir entry.typed)) :
    Accounts outDir made state next where
  sorted := accounts.sorted
  recorded := accounts.recorded
  stored path entry known := by
    obtain ⟨m, last, read⟩ := accounts.stored path entry known
    refine ⟨m, last, ?_⟩
    rw [FileTree.read_eq_ok, artifacts path entry known]
    exact FileTree.read_eq_ok.1 read

/-- Storing one result. -/
theorem Accounts.store {file : SourceFile} {r : UnitResult}
    (accounts : Accounts outDir made state before)
    (stores : Stores outDir state file r before state' after)
    (source : SourceFile.isSource file.path = true) (proper : ∀ m ∈ made, m.Proper)
    (own : ∀ m ∈ Made.of? (file, r), m.Proper) :
    after.home = before.home ∧
      Accounts outDir ((Made.of? (file, r)).toList ++ made) state' after := by
  cases stores with
  | @passed text typed between _ written artifact rewritten deep =>
      let m : Made := ⟨file.path, text, typed⟩
      have some_ : Made.of? (file, r) = some m := Made.of?_eq_some.2 ⟨rfl, written, artifact⟩
      rw [some_] at own ⊢
      have named := (own m rfl).named
      have first : SameTexts (ArtifactPlace outDir before) before between := by
        split at rewritten
        · rw [rewritten]
          exact .refl _ _
        · exact .writeNode rewritten (noArtifact_of_source source)
      have kept := accounts.later proper first
      have home : after.home = before.home := (FileTree.writeDeep_texts deep).1.trans first.home
      have lookup := RunState.lookup_record state file.path text (artifactPath typed.unit)
      refine ⟨home, RunState.record_sorted accounts.sorted _ _ _, ?_, ?_⟩
      · intro path entry known
        rw [lookup] at known
        by_cases here : path = file.path
        · subst here
          rw [beq_self_eq_true, if_pos rfl] at known
          exact ⟨m, List.find?_cons_of_pos (beq_self_eq_true _), Option.some.inj known⟩
        · rw [if_neg (mt beq_iff_eq.1 here)] at known
          obtain ⟨m', found, same⟩ := kept.recorded path entry known
          exact ⟨m', (List.find?_cons_of_neg (p := fun m : Made => m.path == path)
            (mt beq_iff_eq.1 (Ne.symm here))).trans found, same⟩
      · intro path entry known
        by_cases here : m.entry.typed = entry.typed
        · refine ⟨m, List.find?_cons_of_pos (beq_iff_eq.2 here), ?_⟩
          rw [← here]
          exact FileTree.read_of_writeDeep deep
        · -- An entry with another artifact is an earlier one, and the artifact stays as it is.
          rw [lookup] at known
          have known : state.units.lookup path = some entry := by
            split at known
            · exact absurd (congrArg UnitState.typed (Option.some.inj known)) here
            · exact known
          have others : SameTexts (fun names => names ≠ [] ∧
              between.locate? (Path.join outDir (artifactPath typed.unit)) ≠ some names)
              between after :=
            .writeDeep deep fun names located apart => apart.2 located
          obtain ⟨m', last, read⟩ := kept.read known others
            fun m' member same names some_ located =>
              ⟨some_, artifact_apart (proper m' member).named named
                (fun same' => here (same ▸ same'.symm)) some_ located⟩
          exact ⟨m', (List.find?_cons_of_neg (p := fun m : Made => m.entry.typed == entry.typed)
            (mt beq_iff_eq.1 here)).trans last, read⟩
  | failed none_ =>
      have noMade : Made.of? (file, r) = none := by
        rw [Option.eq_none_iff_forall_ne_some]
        intro m found
        obtain ⟨_, written, artifact⟩ := Made.of?_eq_some.1 found
        exact none_ _ _ written artifact
      rw [noMade]
      have lookup := RunState.lookup_forget state file.path
      have earlier {path : String} {entry : UnitState}
          (known : (state.forget file.path).units.lookup path = some entry) :
          state.units.lookup path = some entry := by
        rw [lookup] at known
        split at known
        · cases known
        · exact known
      exact ⟨rfl, RunState.forget_sorted accounts.sorted _,
        fun path entry known => accounts.recorded path entry (earlier known),
        fun path entry known => accounts.stored path entry (earlier known)⟩

/-- Storing results one after the other. -/
theorem Accounts.stores {verbose : Bool} {results : List (SourceFile × UnitResult)} {s t : Session}
    (accounts : Accounts outDir made state s.tree)
    (runs : Runs (results.foldlM (Command.store outDir verbose) state) s state' t)
    (sources : ∀ e ∈ results, SourceFile.isSource e.1.path = true) (proper : ∀ m ∈ made, m.Proper)
    (own : ∀ m ∈ results.filterMap Made.of?, m.Proper) :
    t.tree.home = s.tree.home ∧
      Accounts outDir ((results.filterMap Made.of?).reverse ++ made) state' t.tree := by
  induction results generalizing state s made with
  | nil =>
      obtain ⟨rfl, rfl⟩ := runs_pure.1 runs
      exact ⟨rfl, accounts⟩
  | cons e rest ih =>
      rw [List.foldlM_cons] at runs
      obtain ⟨between, s', first, others⟩ := runs_bind.1 runs
      obtain ⟨source, sources⟩ := List.forall_mem_cons.1 sources
      have split : (e :: rest).filterMap Made.of? =
          (Made.of? e).toList ++ rest.filterMap Made.of? := by
        cases found : Made.of? e with
        | none => rw [List.filterMap_cons_none found]; rfl
        | some m => rw [List.filterMap_cons_some found]; rfl
      rw [split] at own ⊢
      obtain ⟨here, later⟩ := List.forall_mem_append.1 own
      have ownOne : ∀ m ∈ Made.of? e, m.Proper := fun m member =>
        here m (Option.mem_toList.2 member)
      obtain ⟨home, accounts⟩ := accounts.store (runs_store first) source proper ownOne
      obtain ⟨home', accounts⟩ := ih accounts others sources
        (List.forall_mem_append.2 ⟨here, proper⟩) later
      refine ⟨home'.trans home, ?_⟩
      have reversed : ((Made.of? e).toList ++ rest.filterMap Made.of?).reverse =
          (rest.filterMap Made.of?).reverse ++ (Made.of? e).toList := by
        rw [List.reverse_append]
        cases Made.of? e <;> rfl
      rw [reversed, List.append_assoc]
      exact accounts

/-! Runs. -/

theorem Marked.unique {file : SourceFile} {mark mark' : Staleness}
    (marked : Marked state outDir tree file mark) (marked' : Marked state outDir tree file mark') :
    mark = mark' := by
  cases marked with
  | stale none_ =>
      cases marked' with
      | stale _ => rfl
      | fresh some_ _ _ => cases none_.symm.trans some_
  | fresh some_ read known =>
      cases marked' with
      | stale none_ => cases none_.symm.trans some_
      | fresh some_' read' known' =>
          cases some_.symm.trans some_'
          cases read.symm.trans read'
          cases known.symm.trans known'
          rfl

theorem StateAt.unique {path : String} (found : StateAt path tree state)
    (found' : StateAt path tree state') : state = state' := by
  rcases found with ⟨missing, rfl⟩ | ⟨text, read, rfl⟩
  · rcases found' with ⟨_, rfl⟩ | ⟨text, read, rfl⟩
    · rfl
    · cases missing.symm.trans (holds_of_read read)
  · rcases found' with ⟨missing, rfl⟩ | ⟨text', read', rfl⟩
    · cases missing.symm.trans (holds_of_read read)
    · cases read.symm.trans read'
      rfl

theorem Survey.Begins.unique {v v' : Survey} {i : Invocation} {config : Config} {force : Bool}
    (begins : v.Begins i config force tree) (begins' : v'.Begins i config force tree) :
    v = v' := by
  obtain ⟨state, files, marks⟩ := v
  obtain ⟨state', files', marks'⟩ := v'
  have same : state = state' := by
    cases force with
    | true => exact begins.state.trans begins'.state.symm
    | false => exact StateAt.unique begins.state begins'.state
  subst same
  have same : files = files' := begins.files.unique begins'.files
  subst same
  have same : marks = marks' := List.right_unique_forall₂'
    (R := Marked state (config.resolve config.outDir) tree) (fun _ _ _ => Marked.unique)
    begins.marks begins'.marks
  rw [same]

/-- A run over sources that has come to a report, and what it found. -/
structure Ran (around : Surroundings) (i : Invocation) (config : Config) (output : String)
    (force : Bool) (before after : FileTree) (k : Settings) (v : Survey) : Prop where
  runs : ∃ report log log', Runs (preprocess around i config output force) ⟨before, log⟩ report
    ⟨after, log'⟩
  connects : connecting around config before = .ok k
  begins : v.Begins i config force before

section

variable {around : Surroundings} {i : Invocation} {config : Config} {output : String}
  {force verbose : Bool} {k : Settings} {v : Survey}

theorem Ran.writes (ran : Ran around i config output force before after k v) :
    ∃ state, v.Writes k i.verbose output before state after := by
  obtain ⟨report, log, log', runs⟩ := ran.runs
  obtain ⟨k', v', state, connects, begins, _, writes⟩ := runs_preprocess runs
  cases ran.connects.symm.trans connects
  obtain rfl := ran.begins.unique begins
  exact ⟨state, writes⟩

theorem Survey.results_builds {e : SourceFile × UnitResult} (member : e ∈ v.results k) :
    ∀ typed ∈ e.2.typed, typed.source = e.1.path ∧
      ∃ unit ∈ e.1.unit?, typed.unit = unit.name.name :=
  (List.forall₂_iff_zip.1 (k.preprocessor.run_builds v.stale k.stored)).2 member

/-- What a run makes comes of its sources. -/
theorem Survey.mem_made {m : Made} :
    m ∈ v.made k ↔ ∃ e ∈ v.results k, e.1.path = m.path ∧ e.2.rewritten = some m.text ∧
      e.2.typed = some m.typed := by
  unfold made
  rw [List.mem_reverse, List.mem_filterMap]
  simp only [Made.of?_eq_some]

theorem Survey.made_proper (fits : ∀ file ∈ v.stale, file.Fits) : ∀ m ∈ v.made k, m.Proper := by
  intro m member
  obtain ⟨e, among, path, _, artifact⟩ := mem_made.1 member
  obtain ⟨source, unit, inside, name⟩ := results_builds among m.typed artifact
  exact ⟨source.trans path, name ▸ SourceUnit.scan_isName (SourceFile.mem_unit?.1 inside),
    k.preprocessor.run_storable fits k.stored e.2 (List.of_mem_zip among).2 m.typed artifact⟩

/-- What is written to the places of artifacts is what a run makes. -/
theorem Accounts.writes (accounts : Accounts outDir made v.state before)
    (begins : v.Begins i k.config force before)
    (writes : v.Writes k verbose output before state after)
    (directory : k.config.resolve k.config.outDir = outDir) (proper : ∀ m ∈ made, m.Proper)
    (fits : ∀ file ∈ v.stale, file.Fits)
    (database : NoArtifact outDir before (k.config.resolve k.config.url))
    (report : NoArtifact outDir before output)
    (place : before.locate? output ≠ before.locate? (k.config.resolve RunState.fileName)) :
    Accounts outDir (v.made k ++ made) state after ∧
      after.read (k.config.resolve RunState.fileName) = .ok state.toJson.pretty := by
  obtain ⟨s₁, s₂, generated, tree₃, tree₄, text, kept, stores, generates, wrote, saved,
    reported⟩ := writes.parts
  rw [directory] at stores wrote
  have first : SameTexts (ArtifactPlace outDir before) before s₁.tree := by
    rcases kept with same | ⟨node, _, written⟩
    · rw [same]
      exact .refl _ _
    · exact .writeNode written database
  have sources : ∀ e ∈ v.results k, SourceFile.isSource e.1.path = true := fun e member =>
    have stale := (Survey.mem_results member).1
    (begins.files.read ((Survey.stale_of_marks begins.marks ▸ List.filter_sublist).subset stale)).2
  have own : ∀ m ∈ (v.results k).filterMap Made.of?, m.Proper := fun m member =>
    Survey.made_proper fits m (List.mem_reverse.2 member)
  obtain ⟨home, accounts⟩ := (accounts.later proper first).stores stores sources proper own
  have proper' : ∀ m ∈ v.made k ++ made, m.Proper :=
    List.forall_mem_append.2 ⟨Survey.made_proper fits, proper⟩
  have second : SameTexts (ArtifactPlace outDir s₂.tree) s₂.tree tree₃ :=
    .writeAll wrote fun file member =>
      noArtifact_of_endsWith ((generate_endsWith generates file member).join outDir) (by decide)
  have third : SameTexts (ArtifactPlace outDir tree₃) tree₃ tree₄ :=
    .writeNode saved (noArtifact_of_state k.config.projectRoot)
  have home₄ : tree₄.home = before.home :=
    third.home.trans (second.home.trans (home.trans first.home))
  have fourth : SameTexts (ArtifactPlace outDir tree₄) tree₄ after :=
    .writeDeep reported ((NoArtifact.congr home₄).2 report)
  refine ⟨((accounts.later proper' second).later proper' third).later proper' fourth, ?_⟩
  have elsewhere : SameTexts
      (fun names => tree₄.locate? (k.config.resolve RunState.fileName) = some names) tree₄ after :=
    .writeDeep reported fun names located state => by
      rw [FileTree.locate?_congr home₄] at located state
      exact place (located.trans state.symm)
  exact (elsewhere.read fun _ => id).1 (FileTree.read_of_write saved)

end

/-! Histories. -/

/-- The working directories that runs lead to, and all that they have made, the latest first. A
history begins where there is no state. Between runs anything may change but the state and the
artifacts that it names; a run may be on any paths, with any database, and forced, and has places of
its own for its report and its database. -/
inductive Reached (statePath outDir : String) : List Made → FileTree → Prop
  | start {tree : FileTree} : tree.holds statePath = false → Reached statePath outDir [] tree
  | edited {made : List Made} {before after : FileTree} : Reached statePath outDir made before →
      after.home = before.home → after.node statePath = before.node statePath →
      (∀ state, StateAt statePath before state → ∀ path entry,
        state.units.lookup path = some entry →
          after.node (Path.join outDir entry.typed) = before.node (Path.join outDir entry.typed)) →
      Reached statePath outDir made after
  | ran {made : List Made} {before after : FileTree} {around : Surroundings} {i : Invocation}
      {config : Config} {output : String} {force : Bool} {k : Settings} {v : Survey} :
      Reached statePath outDir made before →
      Ran around i config output force before after k v →
      config.resolve RunState.fileName = statePath → config.resolve config.outDir = outDir →
      (∀ file ∈ v.stale, file.Fits) →
      NoArtifact outDir before (config.resolve config.url) → NoArtifact outDir before output →
      before.locate? output ≠ before.locate? statePath →
      Reached statePath outDir (v.made k ++ made) after

theorem StateAt.congr {path : String} (same : other.node path = tree.node path) :
    StateAt path other state ↔ StateAt path tree state := by
  unfold StateAt FileTree.holds FileTree.read
  rw [same]

/-- Every state accounts for what was made. -/
theorem Reached.accounts {statePath : String} (reached : Reached statePath outDir made tree) :
    (∀ m ∈ made, m.Proper) ∧
      ∀ state, StateAt statePath tree state → Accounts outDir made state tree := by
  induction reached with
  | start missing =>
      refine ⟨fun _ member => absurd member List.not_mem_nil, fun state found => ?_⟩
      rcases found with ⟨_, rfl⟩ | ⟨_, read, _⟩
      · exact .empty outDir _ _
      · cases missing.symm.trans (holds_of_read read)
  | @edited made before after _ _ state artifacts ih =>
      refine ⟨ih.1, fun state' found => ?_⟩
      have found := (StateAt.congr state).1 found
      exact (ih.2 state' found).edited (artifacts state' found)
  | @ran made before after around i config output force k v _ ran stated directory fits database
      report place ih =>
      obtain ⟨proper, accounts⟩ := ih
      obtain rfl := connecting_config ran.connects
      obtain ⟨state, writes⟩ := ran.writes
      have accounts : Accounts outDir made v.state before := by
        cases force with
        | true =>
            have none_ : v.state = {} := ran.begins.state
            rw [none_]
            exact .empty outDir made before
        | false => exact accounts v.state (stated ▸ ran.begins.state)
      obtain ⟨accounts, saved⟩ := accounts.writes ran.begins writes directory proper fits database
        report (stated ▸ place)
      refine ⟨List.forall_mem_append.2 ⟨Survey.made_proper fits, proper⟩, fun state' found => ?_⟩
      have kept : StateAt statePath after state :=
        .inr ⟨_, stated ▸ saved, (RunState.load_toJson accounts.sorted).symm⟩
      rw [found.unique kept]
      exact accounts

/-- Where an entry stands for the artifact that was stored last under its name, it is one and the
same thing that was made. -/
theorem Accounts.made_eq (accounts : Accounts outDir made state tree) {path : String}
    {entry : UnitState} (known : state.units.lookup path = some entry)
    (own : ∀ m, Made.latest? made entry.typed = some m → m.path = path) :
    ∃ m ∈ made, m.path = path ∧ m.entry = entry ∧
      tree.read (Path.join outDir entry.typed) = .ok m.typed.toJson.pretty := by
  obtain ⟨m, found, same⟩ := accounts.recorded path entry known
  obtain ⟨m', last, read⟩ := accounts.stored path entry known
  have path' := own m' last
  have one : m' = m := find?_eq_find? last found (beq_iff_eq.2 path')
    (beq_iff_eq.2 (congrArg UnitState.typed same))
  subst one
  exact ⟨m', List.mem_of_find?_eq_some found, path', same, read⟩

/-- The state leads to the artifact of the source itself: for every source that is recorded, unless
the unit of another one was stored since under the name of its artifact, the artifact is the one that
was made as the recorded text was, and its source is that source. A run that skips the source goes on
with this artifact. -/
theorem Reached.artifact_own {statePath : String} (reached : Reached statePath outDir made tree)
    (found : StateAt statePath tree state) {path : String} {entry : UnitState}
    (recorded : state.units.lookup path = some entry)
    (own : ∀ m, Made.latest? made entry.typed = some m → m.path = path) :
    ∃ m ∈ made, m.path = path ∧ m.entry = entry ∧ m.typed.source = path ∧
      (∃ text, tree.read (Path.join outDir entry.typed) = .ok text ∧
        JsonTree.read TypedUnit.ofTree text = .ok m.typed) ∧
      ∀ text mark, Marked state outDir tree ⟨path, text⟩ mark → ∀ f ∈ mark.fresh?,
        f = (path, m.typed) ∧ Digest.ofText text = Digest.ofText m.text := by
  obtain ⟨proper, accounts⟩ := reached.accounts
  obtain ⟨m, member, path', same, read⟩ := (accounts state found).made_eq recorded own
  obtain ⟨source, _, storable⟩ := proper m member
  have whole := TypedUnit.read_toJson storable
  refine ⟨m, member, path', same, source.trans path', ⟨_, read, whole⟩, ?_⟩
  intro text mark marked f fresh
  cases marked with
  | stale _ => cases fresh
  | fresh some_ read' known =>
      obtain ⟨entry', recorded', digest, rfl, _⟩ := artifact?_eq_some.1 some_
      cases recorded.symm.trans recorded'
      cases read.symm.trans read'
      cases whole.symm.trans known
      cases fresh
      exact ⟨rfl, digest.symm.trans (congrArg UnitState.digest same).symm⟩

/-! Two runs over one source each. -/

/-- Where a text is read as before, there is what was there. -/
theorem node_eq_of_read {path text : String} (read : (tree.read path).toOption = some text)
    (same : (other.read path).toOption = some text) : other.node path = tree.node path :=
  (FileTree.read_eq_ok.1 (eq_ok_of_toOption same)).trans
    (FileTree.read_eq_ok.1 (eq_ok_of_toOption read)).symm

/-- A run over one source, on a database of its own. -/
def alone (path : String) (force : Bool) : Running Report :=
  preprocess {} { task := .preprocess "report.txt" force, paths := [path] }
    { projectRoot := "/w", url := ":memory:" } "report.txt" force

def leftBy (path : String) (force : Bool) (tree : FileTree) : FileTree :=
  (((alone path force).run).run { tree }).2.tree

theorem alone_runs {path : String} {force : Bool} {tree : FileTree}
    (some_ : (((alone path force).run).run { tree }).1.toOption.isSome = true) :
    ∃ report log log', Runs (alone path force) ⟨tree, log⟩ report
      ⟨leftBy path force tree, log'⟩ := by
  unfold Runs leftBy
  cases outcome : ((alone path force).run).run { tree } with
  | mk result t =>
      rw [outcome] at some_
      cases result with
      | error e => cases some_
      | ok report => exact ⟨report, [], t.log, outcome⟩

/-- Sources of two units of one name. -/
def namesakes : FileTree :=
  ⟨"/w", [(["a.sqlp"], .text "unit U\n"), (["b.sqlp"], .text "unit U")]⟩

/-- What is there once the first one was checked. -/
def namesakesOnce : FileTree :=
  leftBy "/w/a.sqlp" false namesakes

def namesakeEntry (text : String) : UnitState :=
  ⟨Digest.ofText text, "typed/U.json"⟩

def firstNamesake : TypedUnit := ⟨"U", "/w/a.sqlp", [], []⟩

theorem namesakes_once :
    (((alone "/w/a.sqlp" false).run).run { tree := namesakes }).1.toOption.isSome = true ∧
      (namesakesOnce.read "/w/.sqlprobe-state.json").toOption =
        some (RunState.mk [("/w/a.sqlp", namesakeEntry "unit U\n")]).toJson.pretty ∧
      (namesakesOnce.read "/w/src/generated/typed/U.json").toOption =
        some firstNamesake.toJson.pretty ∧
      (SourceFile.discover ["/w/b.sqlp"] namesakesOnce).toOption = some ["/w/b.sqlp"] ∧
      (namesakesOnce.read "/w/b.sqlp").toOption = some "unit U" ∧ namesakesOnce.home = "/w" := by
  decide +kernel

theorem stateAt_singleton {entry : UnitState}
    (saved : (tree.read "/w/.sqlprobe-state.json").toOption =
      some (RunState.mk [("/w/a.sqlp", entry)]).toJson.pretty) :
    StateAt "/w/.sqlprobe-state.json" tree ⟨[("/w/a.sqlp", entry)]⟩ :=
  .inr ⟨_, eq_ok_of_toOption saved, (RunState.load_toJson (List.pairwise_singleton _ _)).symm⟩

/-- Once the first one was checked, it is edited and checked again. -/
theorem artifact_own_edited :
    let edited : FileTree := ⟨"/w", [(["a.sqlp"], .text "unit U row R(n: long)\n"),
      ([".sqlprobe-state.json"],
        .text (RunState.mk [("/w/a.sqlp", namesakeEntry "unit U\n")]).toJson.pretty),
      (["src"], .directory), (["src", "generated"], .directory),
      (["src", "generated", "typed"], .directory),
      (["src", "generated", "typed", "U.json"], .text firstNamesake.toJson.pretty)]⟩
    let twice := leftBy "/w/a.sqlp" true edited
    ∃ made, Reached "/w/.sqlprobe-state.json" "/w/src/generated" made namesakesOnce ∧
      Reached "/w/.sqlprobe-state.json" "/w/src/generated" made edited ∧
      ∃ made' state entry, Reached "/w/.sqlprobe-state.json" "/w/src/generated" made' twice ∧
        StateAt "/w/.sqlprobe-state.json" twice state ∧
        state.units.lookup "/w/a.sqlp" = some entry ∧
        ∃ m ∈ made', m.path = "/w/a.sqlp" ∧ m.entry = entry ∧ m.typed.source = "/w/a.sqlp" ∧
          ∃ text, twice.read (Path.join "/w/src/generated" entry.typed) = .ok text ∧
            JsonTree.read TypedUnit.ofTree text = .ok m.typed := by
  intro edited twice
  let config : Config := { projectRoot := "/w", url := ":memory:" }
  let k : Settings := ⟨config, .memory ⟨0⟩ none, none⟩
  let file : SourceFile := ⟨"/w/a.sqlp", "unit U\n"⟩
  let file' : SourceFile := ⟨"/w/a.sqlp", "unit U row R(n: long)\n"⟩
  let v : Survey := ⟨{}, [file], [.stale file]⟩
  let v' : Survey := ⟨{}, [file'], [.stale file']⟩
  let entry : UnitState := namesakeEntry file'.text
  have start : namesakes.holds "/w/.sqlprobe-state.json" = false ∧
      (SourceFile.discover ["/w/a.sqlp"] namesakes).toOption = some ["/w/a.sqlp"] ∧
      (namesakes.read "/w/a.sqlp").toOption = some file.text := by
    decide +kernel
  have second : (((alone "/w/a.sqlp" true).run).run { tree := edited }).1.toOption.isSome = true ∧
      (edited.read "/w/.sqlprobe-state.json").toOption =
        some (RunState.mk [("/w/a.sqlp", namesakeEntry file.text)]).toJson.pretty ∧
      (edited.read "/w/src/generated/typed/U.json").toOption = some firstNamesake.toJson.pretty ∧
      (SourceFile.discover ["/w/a.sqlp"] edited).toOption = some ["/w/a.sqlp"] ∧
      (edited.read "/w/a.sqlp").toOption = some file'.text ∧
      (twice.read "/w/.sqlprobe-state.json").toOption =
        some (RunState.mk [("/w/a.sqlp", entry)]).toJson.pretty := by
    decide +kernel
  have last : (Made.latest? (v'.made k ++ (v.made k ++ [])) "typed/U.json").all
      (fun m => m.path == "/w/a.sqlp") = true := by
    decide +kernel
  have places (tree : FileTree) (home : tree.home = "/w") :
      NoArtifact "/w/src/generated" tree (config.resolve config.url) ∧
        NoArtifact "/w/src/generated" tree "report.txt" ∧
        tree.locate? "report.txt" ≠ tree.locate? "/w/.sqlprobe-state.json" := by
    have apart : namesakes.locate? "report.txt" ≠ namesakes.locate? "/w/.sqlprobe-state.json" := by
      decide +kernel
    refine ⟨noArtifact_of_endsWith (c := ':') ⟨by decide +kernel, by decide⟩ (by decide),
      noArtifact_of_endsWith (c := 't') ⟨by decide +kernel, by decide⟩ (by decide), ?_⟩
    have same : tree.home = namesakes.home := home
    rwa [FileTree.locate?_congr same, FileTree.locate?_congr same]
  have fits : file.Fits ∧ file'.Fits := by
    unfold SourceFile.Fits
    decide +kernel
  obtain ⟨ends, saved, artifact, _, _, home⟩ := namesakes_once
  obtain ⟨missing, found, text⟩ := start
  obtain ⟨ends', same, sameArtifact, found', text', saved'⟩ := second
  have runs' : ∃ report log log', Runs (alone "/w/a.sqlp" true) ⟨edited, log⟩ report
    ⟨twice, log'⟩ := alone_runs ends'
  have home' : edited.home = "/w" := rfl
  clear_value twice edited
  have reached : Reached "/w/.sqlprobe-state.json" "/w/src/generated" (v.made k ++ [])
      namesakesOnce := by
    obtain ⟨database, report, place⟩ := places namesakes rfl
    refine .ran (.start missing) ⟨alone_runs ends, rfl, .inl ⟨missing, rfl⟩,
      ⟨_, eq_ok_of_toOption found, .cons ⟨rfl, eq_ok_of_toOption text⟩ .nil⟩,
      .cons (.stale rfl) .nil⟩ (by decide +kernel) (by decide +kernel)
      (List.forall_mem_singleton.2 fits.1) database report place
  have between : Reached "/w/.sqlprobe-state.json" "/w/src/generated" (v.made k ++ []) edited := by
    refine reached.edited (home'.trans home.symm) (node_eq_of_read saved same)
      fun state known path e recorded => ?_
    obtain rfl := known.unique (stateAt_singleton saved)
    have typed : e.typed = "typed/U.json" := by
      rw [List.lookup_cons] at recorded
      split at recorded
      · rw [← Option.some.inj recorded]
        rfl
      · cases recorded
    have joined : Path.join "/w/src/generated" "typed/U.json" = "/w/src/generated/typed/U.json" := by
      decide
    rw [typed, joined]
    exact node_eq_of_read artifact sameArtifact
  have reached' : Reached "/w/.sqlprobe-state.json" "/w/src/generated"
      (v'.made k ++ (v.made k ++ [])) twice := by
    obtain ⟨database, report, place⟩ := places edited home'
    refine between.ran ⟨runs', rfl, rfl,
      ⟨_, eq_ok_of_toOption found', .cons ⟨rfl, eq_ok_of_toOption text'⟩ .nil⟩,
      .cons (.stale rfl) .nil⟩ (by decide +kernel) (by decide +kernel)
      (List.forall_mem_singleton.2 fits.2) database report place
  have known : (RunState.mk [("/w/a.sqlp", entry)]).units.lookup "/w/a.sqlp" = some entry := rfl
  obtain ⟨m, member, path, same, source, artifact, _⟩ := reached'.artifact_own
    (stateAt_singleton saved') known fun m found => by
      rw [Option.all_eq_true] at last
      exact beq_iff_eq.1 (last m found)
  exact ⟨_, reached, between, _, _, entry, reached', stateAt_singleton saved', known, m, member,
    path, same, source, artifact⟩

/-- A computation that begins as is known has the outcome of the rest of it. -/
theorem outcome_bind {α β : Type} {x : Running α} {f : α → Running β} {s t : Session} {a : α}
    {wanted : Except CommandError β × Session → Prop} (first : Runs x s a t)
    (rest : wanted (((f a).run).run t)) : wanted (((x >>= f).run).run s) := by
  have known : (x.run).run s = (.ok a, t) := first
  rw [run_bind, known]
  exact rest

def namesakesState : RunState :=
  ⟨[("/w/a.sqlp", namesakeEntry "unit U\n"), ("/w/b.sqlp", namesakeEntry "unit U")]⟩

def secondNamesake : TypedUnit := ⟨"U", "/w/b.sqlp", [], []⟩

/-- What is there once both were checked. -/
def NamesakesTwice (tree : FileTree) : Prop :=
  (tree.read "/w/.sqlprobe-state.json").toOption = some namesakesState.toJson.pretty ∧
    (tree.read "/w/a.sqlp").toOption = some "unit U\n" ∧
    (tree.read "/w/src/generated/typed/U.json").toOption = some secondNamesake.toJson.pretty

instance (tree : FileTree) : Decidable (NamesakesTwice tree) :=
  inferInstanceAs (Decidable (_ ∧ _))

theorem namesakes_twice :
    NamesakesTwice (leftBy "/w/b.sqlp" false namesakesOnce) := by
  obtain ⟨_, saved, _, found, text, _⟩ := namesakes_once
  have loads : Runs (loadState "/w/.sqlprobe-state.json" false) { tree := namesakesOnce }
      ⟨[("/w/a.sqlp", namesakeEntry "unit U\n")]⟩ { tree := namesakesOnce } :=
    runs_loadState.2 ⟨stateAt_singleton saved, rfl⟩
  have reads : Runs (SourceFile.readAll
        { task := .preprocess "report.txt" false, paths := ["/w/b.sqlp"] }
        { projectRoot := "/w", url := ":memory:" })
      { tree := namesakesOnce } [⟨"/w/b.sqlp", "unit U"⟩] { tree := namesakesOnce } :=
    SourceFile.runs_readAll.2 ⟨⟨_, eq_ok_of_toOption found,
      .cons ⟨rfl, eq_ok_of_toOption text⟩ .nil⟩, rfl⟩
  have marks : Runs ([⟨"/w/b.sqlp", "unit U"⟩].mapM (staleness
        ⟨[("/w/a.sqlp", namesakeEntry "unit U\n")]⟩ "/w/src/generated"))
      { tree := namesakesOnce } [.stale ⟨"/w/b.sqlp", "unit U"⟩] { tree := namesakesOnce } :=
    (Running.runs_mapM runs_staleness).2 ⟨.cons (.stale rfl) .nil, rfl⟩
  let leaves (o : Except CommandError Report × Session) : Prop := NamesakesTwice o.2.tree
  show leaves (((alone "/w/b.sqlp" false).run).run { tree := namesakesOnce })
  unfold alone preprocess
  dsimp only
  apply outcome_bind loads
  apply outcome_bind reads
  apply outcome_bind marks
  unfold leaves
  decide +kernel

/-- The sources of two units of one name are checked one after the other. Then the state leads from
the first one, whose text is as recorded, to the artifact of the second one. -/
theorem artifact_of_namesake :
    let twice := leftBy "/w/b.sqlp" false (leftBy "/w/a.sqlp" false namesakes)
    ∃ state entry text typed, StateAt "/w/.sqlprobe-state.json" twice state ∧
      state.units.lookup "/w/a.sqlp" = some entry ∧ twice.read "/w/a.sqlp" = .ok "unit U\n" ∧
      entry.digest = Digest.ofText "unit U\n" ∧
      twice.read (Path.join "/w/src/generated" entry.typed) = .ok text ∧
      JsonTree.read TypedUnit.ofTree text = .ok typed ∧ typed.source = "/w/b.sqlp" := by
  intro twice
  have leaves : NamesakesTwice twice := namesakes_twice
  clear_value twice
  obtain ⟨saved, kept, artifact⟩ := leaves
  have sorted : RunState.Sorted namesakesState.units := by
    unfold RunState.Sorted
    decide +kernel
  have storable : secondNamesake.Storable :=
    ⟨fun _ member => absurd member List.not_mem_nil, fun _ member => absurd member List.not_mem_nil⟩
  have joined : Path.join "/w/src/generated" "typed/U.json" = "/w/src/generated/typed/U.json" := by
    decide
  have loaded : StateAt "/w/.sqlprobe-state.json" twice namesakesState :=
    .inr ⟨_, eq_ok_of_toOption saved, (RunState.load_toJson sorted).symm⟩
  have read : twice.read (Path.join "/w/src/generated" "typed/U.json") =
      .ok secondNamesake.toJson.pretty := by
    rw [joined]
    exact eq_ok_of_toOption artifact
  exact ⟨namesakesState, namesakeEntry "unit U\n", _, secondNamesake, loaded,
    List.lookup_cons_self, eq_ok_of_toOption kept, rfl, read, TypedUnit.read_toJson storable, rfl⟩

end Command

end SqlUnits
