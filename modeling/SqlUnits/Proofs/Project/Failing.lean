import SqlUnits.Proofs.Project.Storing
/-!
Runs after a run. Sources that failed keep their texts and are checked again, so what failed once,
fails again. A note that counts as an error does not: its source has passed, and is recorded as
every other one that did.
-/

namespace SqlUnits.Command

open FileTree (Changes NoSource)

variable {v v' : Survey} {i : Invocation} {k : Settings} {before after : FileTree}
  {state : RunState} {file : SourceFile} {text : String}

theorem StateAt.sorted {path : String} {tree : FileTree} (found : StateAt path tree state) :
    RunState.Sorted state.units := by
  rcases found with ⟨_, rfl⟩ | ⟨text, _, rfl⟩
  · exact List.Pairwise.nil
  · exact RunState.load_sorted text

/-- The artifact of a source is the one recorded for its path, if the text is as recorded. -/
theorem artifact?_eq_some {outDir path : String} {tree : FileTree} :
    artifact? state outDir tree file = some path ↔
      ∃ entry, state.units.lookup file.path = some entry ∧
        entry.digest = Digest.ofText file.text ∧ path = Path.join outDir entry.typed ∧
        tree.holds path = true := by
  unfold artifact? RunState.fresh?
  cases known : state.units.lookup file.path with
  | none => simp
  | some entry =>
      rw [Option.bind_eq_bind, Option.bind_some]
      by_cases same : entry.digest = Digest.ofText file.text
      · rw [if_pos (beq_iff_eq.2 same)]
        show (some (Path.join outDir entry.typed)).filter tree.holds = some path ↔ _
        rw [Option.filter_eq_some_iff]
        constructor
        · rintro ⟨⟨⟩, there⟩
          exact ⟨entry, rfl, same, rfl, there⟩
        · rintro ⟨_, ⟨⟩, _, rfl, there⟩
          exact ⟨rfl, there⟩
      · rw [if_neg (mt beq_iff_eq.1 same)]
        simp [same]

theorem filter_sublist_of_forall₂ {α : Type} {R : α → α → Prop} {p : α → Bool} {as bs : List α}
    (pairs : List.Forall₂ R as bs) (same : ∀ a b, R a b → p b = true → b = a) :
    (bs.filter p).Sublist as := by
  induction pairs with
  | nil => exact .slnil
  | @cons a b as bs one _ ih =>
      cases kept : p b with
      | false =>
          rw [List.filter_cons_of_neg (by simp [kept])]
          exact ih.cons a
      | true =>
          rw [List.filter_cons_of_pos kept, same a b one kept]
          exact ih.cons_cons a

namespace Survey

/-- What a run has left behind. -/
structure Left (v : Survey) (k : Settings) (before after : FileTree) (state : RunState) : Prop where
  stored : Stored (v.MayWrite k before) (k.config.resolve k.config.outDir) (v.results k) v.state
    state before after
  saved : after.read (k.config.resolve RunState.fileName) = .ok state.toJson.pretty

/-- One result that passed is all that there is for its path. -/
theorem Of.result_unique (of : v.Of i k.config before)
    (apart : v.files.Pairwise SourceFile.NamedApart) {e e' : SourceFile × UnitResult}
    (member : e ∈ v.results k) (member' : e' ∈ v.results k) (same : e.1.path = e'.1.path)
    (passed : e.2.rewritten ≠ none) : e = e' := by
  have symm : Std.Symm Elsewhere := ⟨fun _ _ elsewhere passed same =>
    elsewhere passed.symm same.symm⟩
  by_contra different
  exact (of.elsewhere apart).forall member member' different (.inl passed) same

section

variable (of : v.Of i k.config before) (apart : v.files.Pairwise SourceFile.NamedApart)

include of apart

/-- A source keeps its text, unless it passed. -/
theorem Of.settles {tree : FileTree} (home : ∀ path, tree.locate? path = before.locate? path)
    (changes : Changes (v.MayWrite k before) tree after) (member : file ∈ v.files)
    (there : tree.node file.path = .ok (.text text)) :
    after.read file.path = .ok text ∨ ∃ r text, (file, r) ∈ v.results k ∧
      r.rewritten = some text ∧ after.read file.path = .ok text := by
  obtain ⟨read, source⟩ := of.read member
  obtain ⟨node, found, _, rfl | ⟨names, located, allowed⟩⟩ := changes.node_stays there
  · exact .inl (FileTree.read_eq_ok.2 found)
  have place : before.locate? file.path = some names := home file.path ▸ located
  rcases allowed with noSource | ⟨e, among, new, passed, rfl, place'⟩
  · -- A source is not where none is.
    have named : names ≠ [] := by
      rintro rfl
      obtain ⟨_, located', found'⟩ := FileTree.locate?_of_node (FileTree.read_eq_ok.1 read)
      rw [place] at located'
      cases located'
      cases found'
    rw [FileTree.locate?_source source place named] at noSource
    cases noSource
  · obtain ⟨other, r⟩ := e
    obtain ⟨stale, made⟩ := mem_results among
    cases made with
    | failed none_ _ =>
        rw [none_] at passed
        cases passed
    | passed _ _ unit _ _ inside _ =>
        obtain rfl : other = file := of.eq_of_place apart (of.stale_sublist.subset stale) member
          inside (place'.trans place.symm)
        exact .inr ⟨r, new, among, passed, FileTree.read_eq_ok.2 found⟩

variable (left : v.Left k before after state)

include left

theorem Left.text_kept (member : file ∈ v.files)
    (failed : ∀ r, (file, r) ∈ v.results k → r.rewritten = none) :
    after.read file.path = .ok file.text := by
  have there := FileTree.read_eq_ok.1 (of.read member).1
  rcases of.settles apart (fun _ => rfl) left.stored.changes member there with same | passed
  · exact same
  · obtain ⟨r, text, among, passed, _⟩ := passed
    rw [failed r among] at passed
    cases passed

theorem Left.text_rewritten {r : UnitResult} (member : (file, r) ∈ v.results k)
    (passed : r.rewritten = some text) : after.read file.path = .ok text := by
  have found := of.stale_sublist.subset (mem_results member).1
  have unique (rewritten : ∃ r text, (file, r) ∈ v.results k ∧ r.rewritten = some text ∧
      after.read file.path = .ok text) : after.read file.path = .ok text := by
    obtain ⟨r', text', among, passed', read⟩ := rewritten
    have same := of.result_unique apart member among rfl fun none_ => by
      rw [passed] at none_
      cases none_
    cases same
    rw [passed] at passed'
    cases passed'
    exact read
  rcases (left.stored.passed _ member text passed).written with rfl | ⟨between, there, later⟩
  · have there := FileTree.read_eq_ok.1 (of.read found).1
    exact (of.settles apart (fun _ => rfl) left.stored.changes found there).elim id unique
  · have home (path : String) : between.locate? path = before.locate? path :=
      (later.locate? path).symm.trans (left.stored.changes.locate? path)
    exact (of.settles apart home later found there).elim id unique

/-- Only a source that failed is stale again, with the text that it had. -/
theorem Left.failed_of_stale (again : after.read file.path = .ok text) (member : file ∈ v.files)
    (none_ : artifact? state (k.config.resolve k.config.outDir) after ⟨file.path, text⟩ = none) :
    text = file.text ∧ ∃ r, (file, r) ∈ v.results k ∧ r.rewritten = none := by
  by_cases checked : ∃ r, (file, r) ∈ v.results k
  · obtain ⟨r, among⟩ := checked
    cases passed : r.rewritten with
    | none =>
        have kept := left.text_kept of apart member fun r' among' => by
          by_contra passed'
          cases of.result_unique apart among' among rfl passed'
          exact passed' passed
        exact ⟨Except.ok.inj (again.symm.trans kept), r, among, passed⟩
    | some text' =>
        obtain ⟨artifact, known, there⟩ := (left.stored.passed _ among text' passed).artifact
        rw [left.text_rewritten of apart among passed] at again
        cases again
        have found : artifact? state (k.config.resolve k.config.outDir) after ⟨file.path, text⟩ =
            some _ := artifact?_eq_some.2 ⟨_, known, rfl, rfl, there⟩
        rw [found] at none_
        cases none_
  · -- A source that was fresh is so still.
    have kept := left.text_kept of apart member fun r among => (checked ⟨r, among⟩).elim
    obtain rfl : text = file.text := Except.ok.inj (again.symm.trans kept)
    have fresh : file ∉ v.stale := by
      intro stale
      rw [← results_files (k := k)] at stale
      obtain ⟨e, among, rfl⟩ := List.mem_map.1 stale
      exact checked ⟨e.2, among⟩
    rw [of.stale_eq, List.mem_filter, not_and, Option.isNone_iff_eq_none] at fresh
    obtain ⟨path, found⟩ := Option.ne_none_iff_exists'.1 (fresh member)
    obtain ⟨entry, known, same, rfl, there⟩ := artifact?_eq_some.1 found
    have known' := (left.stored.others file.path fun e among path => ?_).trans known
    · rw [artifact?_eq_some.2 ⟨entry, known', same, rfl, left.stored.changes.holds there⟩] at none_
      cases none_
    · obtain ⟨⟨path', text'⟩, r⟩ := e
      obtain rfl : path' = file.path := path
      have read := (of.read (of.stale_sublist.subset (mem_results among).1)).1
      rw [(of.read member).1] at read
      cases read
      exact checked ⟨r, among⟩

theorem Left.stale_of_failed {r : UnitResult} (among : (file, r) ∈ v.results k)
    (failed : r.rewritten = none) :
    after.read file.path = .ok file.text ∧
      artifact? state (k.config.resolve k.config.outDir) after file = none := by
  constructor
  · have member := of.stale_sublist.subset (mem_results among).1
    refine left.text_kept of apart member fun r' among' => ?_
    by_contra passed
    cases of.result_unique apart among' among rfl passed
    exact passed failed
  · rw [Option.eq_none_iff_forall_ne_some]
    intro path found
    obtain ⟨entry, known, _⟩ := artifact?_eq_some.1 found
    rw [left.stored.failed _ among failed] at known
    cases known

end

/-- The state is found again. -/
theorem Left.state_eq (left : v.Left k before after state) (of : v.Of i k.config before)
    (again : v'.Of i k.config after) : v'.state = state := by
  rcases again.state with ⟨missing, _⟩ | ⟨text, found, loaded⟩
  · rw [holds_of_read left.saved] at missing
    cases missing
  · rw [left.saved] at found
    obtain rfl := Except.ok.inj found
    rw [loaded]
    exact RunState.load_toJson (left.stored.sorted (StateAt.sorted of.state))

/-- The same sources are found again. -/
theorem Left.files_again (left : v.Left k before after state) (of : v.Of i k.config before)
    (again : v'.Of i k.config after) :
    List.Forall₂ (fun file file' => file ∈ v.files ∧ file'.path = file.path ∧
      after.read file.path = .ok file'.text) v.files v'.files := by
  obtain ⟨paths, found, all⟩ := of.files
  obtain ⟨paths', found', all'⟩ := again.files
  have same := left.stored.changes.discover found
  rw [found'] at same
  obtain rfl := Except.ok.inj same
  refine (List.forall₂_and_left _ _).2 ⟨fun _ => id, ?_⟩
  clear found found' same
  generalize v.files = files at all ⊢
  generalize v'.files = files' at all' ⊢
  induction all generalizing files' with
  | nil =>
      cases all'
      exact .nil
  | cons one _ ih =>
      obtain ⟨rfl, _⟩ := one
      cases all' with
      | cons one' rest' => exact .cons one' (ih _ rest')

/-- What is checked again is as it was, in its order; every source that failed is. -/
theorem Left.stale_again (left : v.Left k before after state) (of : v.Of i k.config before)
    (apart : v.files.Pairwise SourceFile.NamedApart) (again : v'.Of i k.config after) :
    v'.stale.Sublist v.files ∧
      ∀ e ∈ v.results k, e.2.rewritten = none → e.1 ∈ v'.stale := by
  have state_eq := left.state_eq of again
  have files := left.files_again of again
  rw [again.stale_eq, state_eq]
  constructor
  · refine filter_sublist_of_forall₂ files fun file file' ⟨member, path, read⟩ none_ => ?_
    obtain ⟨path', text⟩ := file'
    obtain rfl : path' = file.path := path
    have gone := Option.isNone_iff_eq_none.1 none_
    obtain rfl : text = file.text := (left.failed_of_stale of apart read member gone).1
    rfl
  · rintro ⟨file, r⟩ among failed
    obtain ⟨read, none_⟩ := left.stale_of_failed of apart among failed
    have member := of.stale_sublist.subset (mem_results among).1
    obtain ⟨⟨path', text⟩, inside, _, path, read'⟩ := (forall₂_mem files).1 file member
    obtain rfl : path' = file.path := path
    rw [read] at read'
    obtain rfl := Except.ok.inj read'
    exact List.mem_filter.2 ⟨inside, Option.isNone_iff_eq_none.2 none_⟩

end Survey

/-- A command line is run again, and nothing but what the first run wrote has changed: the settings
are those of the first run, and the database opens in the same way however often the sources were
checked on it. Units have different names, and neither the database nor the report is written to a
place that something else has. -/
structure Repeats (around around' : Surroundings) (i : Invocation) (output : String)
    (before after : FileTree) (k : Settings) (files : List SourceFile)
    (kept : Database → Prop) : Prop where
  settings : settings around i before = .ok k
  again : ∀ k', Command.settings around' i after = .ok k' →
    k'.config = k.config ∧ k'.source = k.source ∧ kept (k'.stored.getD {})
  found : SourceFile.Found (SourceFile.roots i k.config) before files
  named : files.Pairwise SourceFile.NamedApart
  start : kept (k.stored.getD {})
  steady : k.preprocessor.Steady files kept
  database : before.NoSource (k.config.resolve k.config.url)
  report : before.NoSource output
  place : before.locate? output ≠ before.locate? (k.config.resolve RunState.fileName)

theorem Survey.report_diagnostics (v : Survey) (k : Settings) :
    (v.report k).diagnostics = (k.run v.stale).report.diagnostics :=
  Report.foldl_addUnit_diagnostics _ _

theorem Survey.report_addsUp (v : Survey) (k : Settings) : (v.report k).AddsUp :=
  (k.preprocessor.run_addsUp v.stale k.stored).addUnits _

theorem Survey.mem_report_diagnostics {v : Survey} {k : Settings} {e : SourceFile × UnitResult}
    {d : Diagnostic} (among : e ∈ v.results k) (member : d ∈ e.2.diagnostics) :
    d ∈ (v.report k).diagnostics := by
  rw [report_diagnostics, Settings.run, Preprocessor.run_diagnostics]
  exact List.mem_append_right _ (List.mem_flatMap.2 ⟨e.2, (List.of_mem_zip among).2, member⟩)

/-- An error that is no note comes of a source that failed. -/
theorem Survey.exists_failed {v : Survey} {k : Settings} {verbose : Bool} {output : String}
    {before after : FileTree} {state : RunState}
    (writes : v.Writes k verbose output before state after) {d : Diagnostic}
    (member : d ∈ (v.report k).diagnostics) (other : d.code.isNote = false) :
    ∃ e ∈ v.results k, e.2.rewritten = none ∧ d ∈ e.2.diagnostics := by
  obtain ⟨_, _, generated, _, _, _, _, _, generates, _⟩ := writes.parts
  have inside : (k.run v.stale).units.filterMap (·.typed) ⊆
      (v.typed k).mergeSort fun a b => a.unit ≤ b.unit := by
    intro unit member
    refine (List.mergeSort_perm _ _).symm.subset (List.mem_append_right _ ?_)
    rw [Settings.run, Preprocessor.run_typed]
    exact member
  obtain ⟨files, fewer⟩ := Code.generate_mono generates inside
  rw [report_diagnostics, Settings.run, Preprocessor.run_diagnostics] at member
  rcases List.mem_append.1 member with generation | checks
  · have none_ : Code.generate ((k.preprocessor.run v.stale k.stored).units.filterMap (·.typed))
        k.preprocessor.config.rowNamespace = .ok files := fewer
    rw [none_] at generation
    cases generation
  · obtain ⟨r, inside, member⟩ := List.mem_flatMap.1 checks
    have results : (v.results k).map Prod.snd = (k.run v.stale).units :=
      List.map_snd_zip (Nat.le_of_eq
        (k.preprocessor.run_results v.stale k.stored).length_eq.symm)
    rw [← Settings.run, ← results] at inside
    obtain ⟨e, among, rfl⟩ := List.mem_map.1 inside
    exact ⟨e, among, (Survey.mem_results among).2.failed_of_diagnostic member other, member⟩

/-- What is made of a source is what is made of it alone. -/
theorem Survey.result_alone {v : Survey} {k : Settings} {files : List SourceFile}
    {kept : Database → Prop} (steady : k.preprocessor.Steady files kept)
    (named : files.Pairwise SourceFile.NamedApart) (sublist : v.stale.Sublist files)
    (start : kept (k.stored.getD {})) {e : SourceFile × UnitResult} (among : e ∈ v.results k)
    {alone : Option Database} (opens : kept (alone.getD {})) :
    (k.preprocessor.run [e.1] alone).units = [e.2] :=
  (List.forall₂_iff_zip.1 (Preprocessor.run_units_steady (steady.mono sublist.subset)
    (named.sublist sublist) start)).2 among alone opens

section

variable {around around' : Surroundings} {words : List String} {output : String} {log : List String}
  {report : Report} {s : Session} {k : Settings} {files : List SourceFile}
  {kept : Database → Prop} {d : Diagnostic}

theorem run_of_runs (parsed : Invocation.ofWords words = .ok i)
    (runs : Runs (runInvocation around i) { tree := before } report s) :
    (run around words before).exitCode = (if report.hasErrors then 1 else 0) ∧
      (run around words before).tree = s.tree := by
  have outcome : ((runInvocation around i).run).run { tree := before } = (.ok report, s) := runs
  unfold run
  rw [parsed]
  dsimp only
  rw [outcome]
  exact ⟨rfl, rfl⟩

theorem hasErrors_of_mem {t : Session} (task : i.task = .preprocess output false)
    (runs : Runs (runInvocation around i) s report t) (member : d ∈ report.diagnostics)
    (error : d.severity = .error) : report.hasErrors = true := by
  obtain ⟨k, v, _, _, _, rfl, _⟩ := runs_invocation task runs
  exact (v.report_addsUp k).hasErrors_iff.2 ⟨d, member, error⟩

/-- What was said of a source that failed is said again. -/
theorem Repeats.says_again (repeats : Repeats around around' i output before after k files kept)
    (task : i.task = .preprocess output false)
    (first : Runs (runInvocation around i) { tree := before } report ⟨after, log⟩)
    (member : d ∈ report.diagnostics) (other : d.code.isNote = false) {report' : Report}
    (second : Runs (runInvocation around' i) { tree := after } report' s) :
    d ∈ report'.diagnostics := by
  obtain ⟨k, v, state, settings, of, rfl, writes⟩ := runs_invocation task first
  cases settings.symm.trans repeats.settings
  cases SourceFile.Found.unique of.files repeats.found
  have named := repeats.named
  obtain ⟨stored, saved⟩ := Survey.leaves of writes named repeats.database repeats.report
    repeats.place
  obtain ⟨⟨file, r⟩, among, failed, member⟩ := Survey.exists_failed writes member other
  obtain ⟨k', v', state', settings', of', rfl, _⟩ := runs_invocation task second
  obtain ⟨config, source, opens⟩ := repeats.again k' settings'
  have same : k'.preprocessor = k.preprocessor := by
    unfold Settings.preprocessor
    rw [config, source]
  rw [config] at of'
  -- The source is stale again, so it has a result in this run as well: the one that it has alone.
  obtain ⟨sublist, stale⟩ := Survey.Left.stale_again ⟨stored, saved⟩ of named of'
  have again := stale (file, r) among failed
  rw [← Survey.results_files (k := k')] at again
  obtain ⟨⟨_, r'⟩, among', rfl⟩ := List.mem_map.1 again
  have alone := Survey.result_alone repeats.steady named of.stale_sublist repeats.start among
    repeats.start
  have alone' := Survey.result_alone (same ▸ repeats.steady) named sublist opens among'
    repeats.start
  rw [same] at alone'
  obtain rfl : r' = r := List.singleton_inj.1 (alone'.symm.trans alone)
  exact Survey.mem_report_diagnostics among' member

/-- A run that failed on a source fails again when it is repeated, and says the same of the source,
if it comes to a report at all: what was recorded of other sources does not hide the source that
failed. -/
theorem preprocess_fails_again (parsed : Invocation.ofWords words = .ok i)
    (task : i.task = .preprocess output false)
    (first : Runs (runInvocation around i) { tree := before } report ⟨after, log⟩)
    (repeats : Repeats around around' i output before after k files kept)
    (member : d ∈ report.diagnostics) (error : d.severity = .error)
    (other : d.code.isNote = false) :
    (run around' words after).exitCode = 1 ∧
      ∀ report' s, Runs (runInvocation around' i) { tree := after } report' s →
        d ∈ report'.diagnostics := by
  refine ⟨?_, fun report' s second => repeats.says_again task first member other second⟩
  cases second : ((runInvocation around' i).run).run { tree := after } with
  | mk result s =>
      cases result with
      | error e =>
          unfold run
          rw [parsed]
          dsimp only
          rw [second]
      | ok report' =>
          have errors := hasErrors_of_mem task second
            (repeats.says_again task first member other second) error
          rw [(run_of_runs parsed second).1, errors, if_pos rfl]

end

theorem preprocess_fails_again_in_memory :
    let words := ["preprocess", "--db", ":memory:"]
    let before : FileTree := ⟨"/w", [
      (["u.sqlp"], .text "unit U\nfn m() \x7b value _ \x7b SELECT missing \x7d \x7d\n")]⟩
    (run {} words before).exitCode = 1 ∧
      (run {} words (run {} words before).tree).exitCode = 1 := by
  intro words before
  let i : Invocation := { task := .preprocess "report.json" false, database := some ":memory:" }
  let k : Settings := ⟨{ projectRoot := "/w", url := ":memory:" }, .memory ⟨0⟩ none, none⟩
  let file : SourceFile :=
    ⟨"/w/u.sqlp", "unit U\nfn m() \x7b value _ \x7b SELECT missing \x7d \x7d\n"⟩
  have parsed : Invocation.ofWords words = .ok i := eq_ok_of_toOption (by decide +kernel)
  have settings (tree : FileTree) (missing : tree.holds Config.fileName = false)
      (home : tree.home = "/w") (unset : databaseVariable? {} tree = none) :
      settings {} i tree = .ok k := by
    unfold Command.settings loaded
    rw [missing, home, unset]
    rfl
  have failed : (((runInvocation {} i).run).run { tree := before }).1.toOption.any (fun report =>
        report.diagnostics.any fun d => d.severity = .error && !d.code.isNote) = true ∧
      (run {} words before).exitCode = 1 ∧
      (run {} words before).tree.holds Config.fileName = false ∧
      (run {} words before).tree.home = "/w" ∧
      databaseVariable? {} (run {} words before).tree = none := by
    decide +kernel
  obtain ⟨some_, exit, missing, home, unset⟩ := failed
  obtain ⟨report, ⟨after, log⟩, first, some_⟩ := Running.exists_runs some_
  obtain ⟨d, member, kind⟩ := List.any_eq_true.1 some_
  obtain ⟨error, other⟩ := Bool.and_eq_true_iff.1 kind
  rw [(run_of_runs parsed first).2] at missing home unset ⊢
  have repeats : Repeats {} {} i "report.json" before after k [file] fun _ => True :=
    { settings := settings before (by decide +kernel) rfl (by decide +kernel)
      again := fun k' found => by
        cases (settings after missing home unset).symm.trans found
        exact ⟨rfl, rfl, trivial⟩
      found := ⟨["/w/u.sqlp"], eq_ok_of_toOption (by decide +kernel),
        .cons ⟨rfl, eq_ok_of_toOption (by decide +kernel)⟩ .nil⟩
      named := List.pairwise_singleton _ _
      start := trivial
      steady := .ofIndependent (ConnectionSource.memory_independent ⟨0⟩ none) _
      database := FileTree.noSource_of_endsWith (c := ':') ⟨by decide +kernel, by decide⟩
        (by decide) before
      report := FileTree.noSource_of_endsWith (c := 'n') ⟨by decide +kernel, by decide⟩
        (by decide) before
      place := by decide +kernel }
  exact ⟨exit, (preprocess_fails_again parsed rfl first repeats member (of_decide_eq_true error)
    (by simpa using other)).1⟩

/-! A note that counts as an error fails one run only. -/

/-- A project with a row that no statement populates. -/
def unusedRow : FileTree := ⟨"/w", [(["u.sqlp"], .text "unit U\nrow R\n")]⟩

/-- A command line on which notes are errors. -/
def strictly : List String := ["preprocess", "--warn", "error"]

def strictInvocation : Invocation :=
  { task := .preprocess "report.json" false, warn := some .error }

def strictConfig : Config := { projectRoot := "/w", warn := .error }

/-- What is there after a run. -/
def unusedRowOnce : Session := { tree := (run {} strictly unusedRow).tree }

def unusedRowTyped : TypedUnit := ⟨"U", "/w/u.sqlp", [], []⟩

def unusedRowState : RunState :=
  ⟨[("/w/u.sqlp", ⟨Digest.ofText "unit U\nrow R\n", "typed/U.json"⟩)]⟩

/-- The run fails; but the unit has passed, and is recorded with its artifact. -/
theorem unusedRow_recorded :
    (((runInvocation {} strictInvocation).run).run { tree := unusedRow }).1.toOption.any
        (·.hasErrors) = true ∧
      (unusedRowOnce.tree.read "/w/.sqlprobe-state.json").toOption =
        some unusedRowState.toJson.pretty ∧
      (unusedRowOnce.tree.read "/w/src/generated/typed/U.json").toOption =
        some unusedRowTyped.toJson.pretty ∧
      (SourceFile.discover ["/w"] unusedRowOnce.tree).toOption = some ["/w/u.sqlp"] ∧
      (unusedRowOnce.tree.read "/w/u.sqlp").toOption = some "unit U\nrow R\n" ∧
      unusedRowOnce.tree.holds Config.fileName = false ∧ unusedRowOnce.tree.home = "/w" ∧
      databaseVariable? {} unusedRowOnce.tree = none := by
  decide +kernel

/-- The artifact of a unit without rows and methods is read back. -/
theorem read_unusedRowTyped :
    JsonTree.read TypedUnit.ofTree unusedRowTyped.toJson.pretty = .ok unusedRowTyped := by
  have readable : unusedRowTyped.toJson.Readable 2 := by
    refine .obj fun m member => ?_
    simp only [List.mem_cons, List.not_mem_nil, or_false] at member
    rcases member with rfl | rfl | rfl | rfl
    · exact .plain rfl
    · exact .plain rfl
    · exact .arr nofun
    · exact .arr nofun
  refine JsonTree.read_pretty (readable.mono (by decide)) fun t spells => ?_
  refine spells.record (by simp) fun m holds => ?_
  have unit : m.required "unit" JsonTree.string = .ok "U" :=
    holds.required rfl fun t spells => spells.string
  have source : m.required "source" JsonTree.string = .ok "/w/u.sqlp" :=
    holds.required rfl fun t spells => spells.string
  have rows : m.required "rows" (JsonTree.list TypedRow.ofTree) = .ok [] :=
    holds.required rfl fun t spells => spells.list .nil
  have methods : m.required "methods" (JsonTree.list TypedMethod.ofTree) = .ok [] :=
    holds.required rfl fun t spells => spells.list .nil
  rw [unit, source, rows, methods]
  rfl

/-- A computation that begins as is known ends as is wanted. -/
theorem ends_bind {α β : Type} {x : Running α} {f : α → Running β} {s t : Session} {a : α}
    {wanted : β → Bool} (first : Runs x s a t)
    (rest : (((f a).run).run t).1.toOption.any wanted = true) :
    (((x >>= f).run).run s).1.toOption.any wanted = true := by
  have known : (x.run).run s = (.ok a, t) := first
  rw [run_bind, known]
  exact rest

theorem unusedRow_skipped :
    (((preprocess {} strictInvocation strictConfig "report.json" false).run).run
      unusedRowOnce).1.toOption.any (fun report => !report.hasErrors) = true := by
  obtain ⟨_, saved, artifact, found, text, _⟩ := unusedRow_recorded
  have there := eq_ok_of_toOption artifact
  have loads : Runs (loadState (strictConfig.resolve RunState.fileName) false) unusedRowOnce
      unusedRowState unusedRowOnce :=
    runs_loadState.2 ⟨.inr ⟨_, eq_ok_of_toOption saved,
      (RunState.load_toJson (List.pairwise_singleton _ _)).symm⟩, rfl⟩
  have reads : Runs (SourceFile.readAll strictInvocation strictConfig) unusedRowOnce
      [⟨"/w/u.sqlp", "unit U\nrow R\n"⟩] unusedRowOnce :=
    SourceFile.runs_readAll.2 ⟨⟨_, eq_ok_of_toOption found,
      .cons ⟨rfl, eq_ok_of_toOption text⟩ .nil⟩, rfl⟩
  have marks : Runs ([⟨"/w/u.sqlp", "unit U\nrow R\n"⟩].mapM (staleness unusedRowState
      (strictConfig.resolve strictConfig.outDir))) unusedRowOnce
      [.fresh "/w/u.sqlp" unusedRowTyped] unusedRowOnce :=
    (Running.runs_mapM runs_staleness).2 ⟨.cons (.fresh (artifact?_eq_some.2
      ⟨_, rfl, rfl, rfl, holds_of_read there⟩) there read_unusedRowTyped) .nil, rfl⟩
  unfold preprocess
  dsimp only
  apply ends_bind loads
  apply ends_bind reads
  apply ends_bind marks
  decide +kernel

/-- The row is an error in the first run only: its unit is recorded as one that passed, so it is
skipped in the second run, and nothing of it is reported. -/
theorem preprocess_forgets_notes :
    (((runInvocation {} strictInvocation).run).run { tree := unusedRow }).1.toOption.any
        (·.hasErrors) = true ∧
      (run {} strictly unusedRow).exitCode = 1 ∧
      (run {} strictly (run {} strictly unusedRow).tree).exitCode = 0 := by
  have parsed : Invocation.ofWords strictly = .ok strictInvocation :=
    eq_ok_of_toOption (by decide +kernel)
  obtain ⟨failed, _, _, _, _, missing, home, unset⟩ := unusedRow_recorded
  have config : Runs (loadConfig strictInvocation) unusedRowOnce { projectRoot := "/w" }
      unusedRowOnce := by
    unfold loadConfig
    refine runs_bind.2 ⟨_, _, Running.runs_get.2 ⟨rfl, rfl⟩, ?_⟩
    dsimp only [strictInvocation]
    rw [missing, home]
    exact runs_bind.2 ⟨(), _, Running.runs_say.2 rfl, runs_pure.2 ⟨rfl, rfl⟩⟩
  have whole : (((runInvocation {} strictInvocation).run).run unusedRowOnce).1.toOption.any
      (fun report => !report.hasErrors) = true := by
    unfold runInvocation
    apply ends_bind (Running.runs_get.2 ⟨rfl, rfl⟩)
    apply ends_bind config
    rw [unset]
    apply ends_bind (a := ()) (Running.runs_say.2 rfl)
    exact unusedRow_skipped
  obtain ⟨report, s, second, passed⟩ := Running.exists_runs whole
  obtain ⟨report', s', first, errors⟩ := Running.exists_runs failed
  refine ⟨failed, ?_, ?_⟩
  · rw [(run_of_runs parsed first).1, errors, if_pos rfl]
  · have none_ : report.hasErrors = false := by simpa using passed
    have exit := (run_of_runs parsed second).1
    rw [none_, if_neg Bool.false_ne_true] at exit
    exact exit

end SqlUnits.Command
