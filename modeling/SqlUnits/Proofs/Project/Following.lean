import SqlUnits.Proofs.Check.Again
import SqlUnits.Proofs.Check.Isolation
import SqlUnits.Proofs.Project.Again
import SqlUnits.Proofs.Project.Isolation
/-!
Checks that follow other ones. A unit that has passed on one connection passes on any that repeats
it, and with the same outcome; what is known of the rows of other units makes no difference.

So with what several runs make of one file, on databases that answer alike. A file that passes in
one of them has the same result in the others; and the text that is written for it has that result
too, but that its rows are declared.
-/

namespace SqlUnits

section

variable {R : Connection → Connection → Prop} {unit : SourceUnit} {s t s' : CheckState}

/-- States of a check and of one that follows it. -/
structure CheckState.Followed (R : Connection → Connection → Prop) (unit : SourceUnit)
    (s t : CheckState) : Prop where
  connection : R s.connection t.connection
  shapes : s.shapes.SameFor unit t.shapes

/-- A computation that, where it comes to a result, comes to the same one from states that follow. -/
def Follows (R : Connection → Connection → Prop) (unit : SourceUnit)
    (x : ExceptT ε (StateM CheckState) α) : Prop :=
  ∀ s t a s', s.Followed R unit t → Runs x s a s' →
    ∃ t', Runs x t a t' ∧ s'.Followed R unit t'

theorem Follows.composes (R : Connection → Connection → Prop) (unit : SourceUnit) :
    Composes fun x => Follows R unit x where
  pure b := by
    intro s t a s' followed runs
    obtain ⟨rfl, rfl⟩ := runs_pure.1 runs
    exact ⟨t, runs_pure.2 ⟨rfl, rfl⟩, followed⟩
  throw e := by
    intro s t a s' _ runs
    cases runs
  bind := by
    intro _ _ _ x k first second s t a s' followed runs
    obtain ⟨b, between, here, later⟩ := runs_bind.1 runs
    obtain ⟨between', here', followed'⟩ := first s t b between followed here
    obtain ⟨t', later', last⟩ := second b between between' a s' followed' later
    exact ⟨t', runs_bind.2 ⟨b, between', here', later'⟩, last⟩
  adapt := by
    intro _ _ _ x follows f s t a s' followed runs
    obtain ⟨t', runs', last⟩ := follows s t a s' followed (runs_adapt.1 runs)
    exact ⟨t', runs_adapt.2 runs', last⟩

namespace Validator

variable {v : Validator}

theorem askChecker_follows (repeats : v.checker.Repeats R) (unit : SourceUnit) (site : Site)
    (call : CheckCall) : Follows R unit (v.askChecker site call) := by
  intro s t d s' followed runs
  obtain ⟨noted, rfl⟩ := runs_askChecker.1 runs
  have answered := answered_again repeats followed.connection noted
  refine ⟨v.asked call t, runs_askChecker.2 ⟨answered ▸ noted, rfl⟩, ?_⟩
  unfold asked
  split <;> exact ⟨followed.connection, followed.shapes⟩

theorem prepare_follows (repeats : v.checker.Repeats R) (unit : SourceUnit) (sql : String)
    (args : Arguments) (checked : Checked) :
    Follows R unit (v.prepare sql args >>= fun _ => pure checked) := by
  intro s t a s' followed runs
  obtain ⟨⟨prepared, values⟩, _, prepares, last⟩ := runs_bind.1 runs
  obtain ⟨bound, rfl⟩ := runs_prepare.1 prepares
  obtain ⟨rfl, rfl⟩ := runs_pure.1 last
  -- The statement is another one, of which nothing is left in the end.
  obtain ⟨again, bound', _⟩ := prepared_again repeats followed.connection bound
  exact ⟨t, runs_bind.2 ⟨_, t, runs_prepare.2 ⟨bound', rfl⟩, runs_pure.2 ⟨rfl, rfl⟩⟩, followed⟩

theorem discover_follows (repeats : v.checker.Repeats R) (unit : SourceUnit) (sql : String)
    (args : Arguments) : Follows R unit (v.discover sql args) := by
  intro s t columns s' followed runs
  obtain ⟨prepared, values, bound, described, rfl⟩ := runs_discover.1 runs
  obtain ⟨again, bound', described'⟩ := prepared_again repeats followed.connection bound
  obtain ⟨same, next⟩ := described' columns described
  exact ⟨_, runs_discover.2 ⟨again, values, bound', same, rfl⟩, next, followed.shapes⟩

theorem checkRow_follows (R : Connection → Connection → Prop) (v : Validator) (site : Site)
    (typed : TypedStatement) (row : Ident) (columns : List ColumnInfo) :
    Follows R site.unit (v.checkRow site typed row columns) := by
  intro s t checked s' followed runs
  obtain ⟨fits, shape, next, recorded, rfl, rfl⟩ := runs_checkRow.1 runs
  rcases ShapeRegistry.record_alike (followed.shapes row.name)
      (site.statement.convention == .metadata) columns site.location with
    ⟨e, here, _⟩ | ⟨shape', first, second, here, there⟩
  · cases recorded.symm.trans here
  · cases recorded.symm.trans here
    refine ⟨{ t with shapes := second }, runs_checkRow.2 ⟨fits, _, second, there, rfl, rfl⟩,
      followed.connection, fun own => ?_⟩
    show next.get? _ = second.get? _
    rw [(ShapeRegistry.record_eq_ok here).1, (ShapeRegistry.record_eq_ok there).1,
      followed.shapes own]

theorem checkQuery_follows (repeats : v.checker.Repeats R) (site : Site) (typed : TypedStatement)
    (sql : String) (args : Arguments) :
    Follows R site.unit (v.checkQuery site typed sql args) := by
  have rules := Follows.composes R site.unit
  apply rules.bind (discover_follows repeats site.unit sql args)
  intro columns
  cases site.statement.target with
  | row row => exact checkRow_follows R v site typed row columns
  | value declared span => exact rules.bind (rules.lift _) fun _ => rules.pure _
  | none => exact rules.pure _

theorem parts_follow (repeats : v.checker.Repeats R) (unit : SourceUnit) :
    v.HasParts unit fun x => Follows R unit x where
  ask method s call := askChecker_follows repeats unit ⟨unit, method, s⟩ call
  prepare sql args checked := prepare_follows repeats unit sql args checked
  query method s typed sql args := checkQuery_follows repeats ⟨unit, method, s⟩ typed sql args

/-- A unit that has passed passes in any other run that opens a connection which repeats the one it
passed on, and knows the same of its rows; then they know the same of them. -/
theorem validate_follows (repeats : v.checker.Repeats R) {source source' : ConnectionSource}
    {run run' last : RunRecord} {u : ValidatedUnit}
    (opens : ∀ c, (source.connect (run.stored.getD {})).1 = .ok c →
      ∃ c', (source'.connect (run'.stored.getD {})).1 = .ok c' ∧ R c c')
    (same : run.shapes.SameFor unit run'.shapes)
    (passed : v.validate source unit run = (.ok u, last)) :
    ∃ last', v.validate source' unit run' = (.ok u, last') ∧
      last.shapes.SameFor unit last'.shapes := by
  obtain ⟨table, c, stored, s, inferred, connected, checks, rfl⟩ := validate_eq_ok.1 passed
  obtain ⟨c', connected', related⟩ := opens c (congrArg Prod.fst connected)
  have followed : CheckState.Followed R unit ⟨c, run.shapes, run.checks⟩
      ⟨c', run'.shapes, run'.checks⟩ := ⟨related, same⟩
  obtain ⟨s', checks', last⟩ := (Follows.composes R unit).validateMethods
    (parts_follow repeats unit) table _ _ u s followed checks
  exact ⟨_, validate_eq_ok.2 ⟨table, c', _, s', inferred, Prod.ext connected' rfl, checks', rfl⟩,
    last.shapes⟩

end Validator

end

variable {R : Connection → Connection → Prop} {kept : Database → Prop}

/-- Each connection to one of some databases is repeated by a connection to any of them. -/
def ConnectionSource.RepeatedBy (R : Connection → Connection → Prop) (kept : Database → Prop)
    (source source' : ConnectionSource) : Prop :=
  ∀ db db', kept db → kept db' → ∀ c, (source.connect db).1 = .ok c →
    ∃ c', (source'.connect db').1 = .ok c' ∧ R c c'

namespace Preprocessor

variable {p : Preprocessor} {source' : ConnectionSource} {file : SourceFile}
  {files : List SourceFile} {run run' : RunRecord} {text : String} {r r' : UnitResult}

/-- A file that passes has its result wherever the same is known of its rows. -/
theorem own_follows (repeats : p.checker.Repeats R)
    (opens : ∀ c, (p.source.connect (run.stored.getD {})).1 = .ok c →
      ∃ c', (source'.connect (run'.stored.getD {})).1 = .ok c' ∧ R c c')
    (same : ∀ unit ∈ file.unit?, run.shapes.SameFor unit run'.shapes)
    (rewritten : (p.own run file).rewritten = some text) :
    ({ p with source := source' } : Preprocessor).own run' file = p.own run file := by
  obtain ⟨unit, u, last, read, passed, attempted⟩ := attempt_rewritten rewritten
  have member := SourceFile.mem_unit?.2 read
  obtain ⟨last', passed', rows⟩ :=
    Validator.validate_follows repeats opens (same unit member) passed
  let p' : Preprocessor := { p with source := source' }
  have attempted' : p'.attempt run' file = (.passed file unit u, last') := by
    have passed' : p'.validator.validate p'.source unit run' = (.ok u, last') := passed'
    rw [attempt_of_scan read, passed']
  unfold own
  rw [attempted, attempted']
  refine (Attempt.result_same fun unit' inside => ?_).symm
  obtain rfl : unit = unit' := Option.some.inj inside
  exact rows

/-- A result that a file comes to in a run that knows nothing of its rows, on a database that is
kept to. -/
def Makes (p : Preprocessor) (kept : Database → Prop) (file : SourceFile) (r : UnitResult) : Prop :=
  ∃ run : RunRecord, kept (run.stored.getD {}) ∧
    (∀ unit ∈ file.unit?, ({} : ShapeRegistry).SameFor unit run.shapes) ∧
    r = withSeverities p.config (p.own run file)

/-- Such databases come of those that are kept to when files are checked. -/
def Keeps (p : Preprocessor) (kept : Database → Prop) (files : List SourceFile) : Prop :=
  ∀ file ∈ files, ∀ run : RunRecord, kept (run.stored.getD {}) →
    kept ((p.attempt run file).2.stored.getD {})

theorem attempts_make (keeps : p.Keeps kept files)
    (apart : files.Pairwise SourceFile.NamedApart) (start : kept (run.stored.getD {}))
    (fresh : ∀ file ∈ files, ∀ unit ∈ file.unit?, ({} : ShapeRegistry).SameFor unit run.shapes) :
    List.Forall₂ (fun file a => p.Makes kept file
        (withSeverities p.config (a.result (p.attempts run files).2.shapes)))
      files (p.attempts run files).1 := by
  induction files generalizing run with
  | nil => exact .nil
  | cons file rest ih =>
      obtain ⟨first, others⟩ := List.pairwise_cons.1 apart
      obtain ⟨fresh, later⟩ := List.forall_mem_cons.1 fresh
      obtain ⟨next, keeps⟩ := List.forall_mem_cons.1 keeps
      refine .cons ⟨run, start, fresh, ?_⟩ (ih keeps others (next run start)
        fun other member unit inside =>
          (later other member unit inside).trans (attempt_apart (first other member) run unit inside))
      -- The files behind this one leave its rows alone.
      refine congrArg (withSeverities p.config) (Attempt.result_same fun unit inside => ?_).symm
      exact attempts_apart (fun other member => (first other member).symm) _ unit
        (attempt_unit? p run file ▸ inside)

/-- A run makes something of each file. -/
theorem run_makes (keeps : p.Keeps kept files) (apart : files.Pairwise SourceFile.NamedApart)
    {stored : Option Database} (start : kept (stored.getD {})) :
    List.Forall₂ (p.Makes kept) files (p.run files stored).units := by
  rw [run_units, List.forall₂_map_right_iff]
  have opens : kept (({ stored } : RunRecord).stored.getD {}) := start
  exact attempts_make keeps apart opens fun _ _ _ _ _ => rfl

/-- A file has one result, once it passes. -/
theorem Makes.follows (repeats : p.checker.Repeats R)
    (opens : p.source.RepeatedBy R kept source') (makes : p.Makes kept file r)
    (makes' : ({ p with source := source' } : Preprocessor).Makes kept file r')
    (rewritten : r.rewritten = some text) : r' = r := by
  obtain ⟨run, start, fresh, rfl⟩ := makes
  obtain ⟨run', start', fresh', rfl⟩ := makes'
  refine congrArg (withSeverities p.config) (own_follows repeats (opens _ _ start start') ?_
    rewritten)
  exact fun unit member row =>
    (fresh unit member row).symm.trans (fresh' unit member row)

/-- A result comes again of the text that is written for it. -/
theorem Makes.again (builtins : p.registry.HasBuiltins) (repeats : p.checker.Repeats R)
    (reopens : p.source.RepeatedBy R kept p.source) (opens : p.source.RepeatedBy R kept source')
    (makes : p.Makes kept file r) {typed : TypedUnit} (rewritten : r.rewritten = some text)
    (artifact : r.typed = some typed)
    (some_ : ∀ row ∈ typed.rows, row.declared = false → row.fields ≠ [])
    (makes' : ({ p with source := source' } : Preprocessor).Makes kept ⟨file.path, text⟩ r') :
    ∃ typed', r' = { r with typed := some typed' } ∧ typed'.unmarked = typed.unmarked := by
  obtain ⟨run, start, fresh, rfl⟩ := makes
  -- The file alone, on a database that the run has found.
  let alone : RunRecord := { stored := run.stored }
  have shapes : alone.shapes = {} := rfl
  have same : p.own alone file = p.own run file :=
    own_follows repeats (reopens _ _ start start)
      (fun unit member row => (fresh unit member row).symm) rewritten
  have rewritten' : (p.own alone file).rewritten = some text := by
    rw [same]
    exact rewritten
  have artifact' : (p.own alone file).typed = some typed := by
    rw [same]
    exact artifact
  obtain ⟨typed', again, unmarked⟩ := own_again builtins repeats shapes shapes
    (reopens _ _ start start) rewritten' artifact' some_
  have second : p.Makes kept ⟨file.path, text⟩
      (withSeverities p.config { p.own alone file with typed := some typed' }) :=
    ⟨alone, start, fun _ _ _ => rfl, by rw [again]⟩
  refine ⟨typed', ?_, unmarked⟩
  rw [second.follows repeats opens makes' rewritten', same]
  rfl

end Preprocessor

end SqlUnits
