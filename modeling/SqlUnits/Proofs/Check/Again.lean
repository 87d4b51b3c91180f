import SqlUnits.Proofs.Check.Discovered
import SqlUnits.Proofs.Check.Filled
import SqlUnits.Proofs.Unit.Scan
/-!
Checking again what was filled in with the outcome of a check. Statements take other branches then,
since types and fields are declared; on a database that tells the same again they pass again, and
there is nothing left to write.
-/

namespace SqlUnits

/-- A relation of connections on which the same statements are prepared, and described with the
same columns one after the other. -/
def Connection.Repeats (R : Connection → Connection → Prop) : Prop :=
  ∀ c c', R c c' → ∀ sql s, c.prepare sql = .ok s →
    ∃ s', c'.prepare sql = .ok s' ∧ s'.paramCount = s.paramCount ∧
      ∀ values columns, (c.describe sql s values).1 = .ok columns →
        (c'.describe sql s' values).1 = .ok columns ∧
          R (c.describe sql s values).2 (c'.describe sql s' values).2

/-- A connection repeats itself. -/
theorem Connection.repeats_eq : Connection.Repeats Eq := by
  rintro c _ rfl sql s prepared
  exact ⟨s, prepared, rfl, fun values columns described => ⟨described, rfl⟩⟩

namespace Checker

/-- A checker that rejects nothing on connections that repeat others, unless it did so there. -/
structure Repeats (checker : Checker) (R : Connection → Connection → Prop) : Prop where
  connections : Connection.Repeats R
  check : ∀ c c', R c c' → ∀ call answer, checker.check c call = answer →
    (∀ sql message, answer ≠ .error (.rejected sql message)) → checker.check c' call = answer

variable {R : Connection → Connection → Prop} {c c' : Connection}

theorem compile_again (repeats : Connection.Repeats R) (related : R c c') {sql text : String}
    {answer : Except CheckError Unit} (compiled : compile c sql text = answer)
    (passed : ∀ sql message, answer ≠ .error (.rejected sql message)) :
    compile c' sql text = answer := by
  subst compiled
  unfold compile at passed ⊢
  cases prepared : c.prepare text with
  | error e => exact absurd (by rw [prepared]) (passed sql e.message)
  | ok s =>
      obtain ⟨s', prepared', _⟩ := repeats c c' related text s prepared
      rw [prepared']

theorem sqlite_repeats (repeats : Connection.Repeats R) : sqlite.Repeats R := by
  refine ⟨repeats, fun c c' related call answer checked passed => ?_⟩
  cases call with
  | sql sql =>
      unfold sqlite at checked ⊢
      dsimp only at checked ⊢
      by_cases skipped : (StatementKind.ofText .sqlite sql).isSkipped = true
      · rw [if_pos skipped] at checked ⊢
        exact checked
      · rw [if_neg skipped] at checked ⊢
        cases numbered : Query.numbered sql with
        | error e =>
            rw [numbered] at checked
            exact absurd checked.symm (passed sql e.message)
        | ok text =>
            rw [numbered] at checked
            exact compile_again repeats related checked passed
  | procedure name params =>
      unfold sqlite at checked ⊢
      dsimp only at checked ⊢
      cases called : Dialect.sqlite.callSql (Query.callForm name params.length) with
      | error e =>
          rw [called] at checked
          exact checked
      | ok text =>
          rw [called] at checked
          exact compile_again repeats related checked passed
  | sequence name =>
      unfold sqlite at checked ⊢
      dsimp only at checked ⊢
      generalize Dialect.sqlite.nextIdSql name = sql at checked ⊢
      exact compile_again repeats related checked passed

theorem generic_repeats (repeats : Connection.Repeats R) : generic.Repeats R := by
  refine ⟨repeats, fun c c' related call answer checked passed => ?_⟩
  cases call with
  | sql sql =>
      unfold generic at checked ⊢
      dsimp only at checked ⊢
      by_cases block : StatementKind.ofText .ansi sql = .block
      · rw [if_pos block] at checked ⊢
        exact checked
      · rw [if_neg block] at checked ⊢
        exact compile_again repeats related checked passed
  | procedure | sequence => exact checked

/-- Checkers that only prepare statements repeat themselves as their connections do. -/
theorem ofDialect_repeats (repeats : Connection.Repeats R) (dialect : SqlDialect) :
    (ofDialect dialect).Repeats R := by
  cases dialect with
  | sqlite => exact sqlite_repeats repeats
  | postgres | ansi => exact generic_repeats repeats

end Checker

/-- What a filling has from the outcome of a check: the edits that it found, and the shapes. -/
structure Filling.FoundIn (f : Filling) (unit : SourceUnit) (edits : EditList)
    (shapes : ShapeRegistry) : Prop where
  param : Inference.Sampled f
  value : ∀ span, ∀ type ∈ ValueType.builtins, ⟨span, type.name⟩ ∈ edits.edits →
    f.value span = type
  row : ∀ r shape, f.row r = some shape → shapes.get? (unit.qualified r.name.name) = some shape

/-- States of a check and of its repetition. -/
structure CheckState.Alike (R : Connection → Connection → Prop) (s s' : CheckState) : Prop where
  connection : R s.connection s'.connection
  shapes : s'.shapes = s.shapes

/-- A unit to be checked again on what its check has found. -/
structure Repetition (v : Validator) (R : Connection → Connection → Prop) (f : Filling)
    (unit unit' : SourceUnit) (edits : EditList) (shapes : ShapeRegistry) : Prop where
  builtins : v.registry.HasBuiltins
  repeats : v.checker.Repeats R
  filled : unit.Filled f unit'
  found : f.FoundIn unit edits shapes
  builtin : shapes.Builtin

namespace Validator

variable {v : Validator} {R : Connection → Connection → Prop} {f : Filling}
  {unit unit' : SourceUnit} {edits : EditList} {shapes : ShapeRegistry} {m m' : MethodDecl}
  {s s' : StatementDecl} {c c' : Connection}

theorem prepared_again (repeats : v.checker.Repeats R) (alike : R c c') {sql : String}
    {args : Arguments} {statement : Statement} {values : List Stored}
    (prepared : v.prepared c sql args = .ok (statement, values)) :
    ∃ again, v.prepared c' sql args = .ok (again, values) ∧
      ∀ columns, (c.describe sql statement values).1 = .ok columns →
        (c'.describe sql again values).1 = .ok columns ∧
          R (c.describe sql statement values).2 (c'.describe sql again values).2 := by
  obtain ⟨first, count, written⟩ := prepared_eq_ok.1 prepared
  obtain ⟨again, there, same, described⟩ := repeats.connections c c' alike sql statement first
  exact ⟨again, prepared_eq_ok.2 ⟨there, same.trans count, written⟩, described values⟩

/-- A call that was noted is answered the same way again. -/
theorem answered_again (repeats : v.checker.Repeats R) (alike : R c c') {site : Site}
    {call : CheckCall} {d : Diagnostic} (noted : note site (v.checker.check c call) = .ok d) :
    v.checker.check c' call = v.checker.check c call := by
  refine repeats.check c c' alike call _ rfl fun sql message rejected => ?_
  rw [rejected] at noted
  cases noted

theorem note_again (repeats : v.checker.Repeats R) (alike : R c c')
    (filled : unit.Filled f unit') (method : m.Filled f m') (statement : s.Filled f s')
    {call : CheckCall} {d : Diagnostic}
    (noted : note ⟨unit, m, s⟩ (v.checker.check c call) = .ok d) :
    note ⟨unit', m', s'⟩ (v.checker.check c' call) = .ok d := by
  rw [note_filled filled method statement, answered_again repeats alike noted]
  exact noted

variable {st st' t : CheckState} {checked : Checked} {typed : TypedStatement}

theorem alike_asked (alike : st.Alike R st') (call call' : CheckCall) :
    (v.asked call st).Alike R (v.asked call' st') := by
  unfold asked
  split <;> exact ⟨alike.connection, alike.shapes⟩

theorem checkObject_again (repeats : v.checker.Repeats R) (filled : unit.Filled f unit')
    (method : m.Filled f m') (statement : s.Filled f s') (alike : st.Alike R st')
    {args : List String} {call : CheckCall}
    (runs : Runs (v.checkObject ⟨unit, m, s⟩ typed args call) st checked t) :
    checked.edit = none ∧
      ∃ t', Runs (v.checkObject ⟨unit', m', s'⟩ typed args call) st' { checked with edit := none }
        t' ∧ t.Alike R t' := by
  obtain ⟨d, noted, rfl, rfl⟩ := runs_checkObject.1 runs
  have noted' := note_again repeats alike.connection filled method statement noted
  exact ⟨rfl, _, runs_checkObject.2 ⟨d, noted', rfl, rfl⟩, alike_asked alike call call⟩

theorem checkMutation_again (repeats : v.checker.Repeats R) (filled : unit.Filled f unit')
    (method : m.Filled f m') (statement : s.Filled f s') (alike : st.Alike R st')
    {sql : String} {args : Arguments}
    (runs : Runs (v.checkMutation ⟨unit, m, s⟩ typed sql args) st checked t) :
    checked.edit = none ∧
      ∃ t', Runs (v.checkMutation ⟨unit', m', s'⟩ typed sql args) st'
        { checked with edit := none } t' ∧ t.Alike R t' := by
  obtain ⟨d, text, ⟨prepared, values⟩, noted, written, bound, rfl, rfl⟩ :=
    runs_checkMutation.1 runs
  have noted' := note_again repeats alike.connection filled method statement noted
  obtain ⟨again, bound', _⟩ := prepared_again repeats alike.connection bound
  rw [← statement.convention] at written
  exact ⟨rfl, _, runs_checkMutation.2 ⟨d, text, _, noted', written, bound', rfl, rfl⟩,
    alike_asked alike _ _⟩

theorem discover_again (repeats : v.checker.Repeats R) (alike : st.Alike R st') {sql : String}
    {args : Arguments} {columns : List ColumnInfo}
    (runs : Runs (v.discover sql args) st columns t) :
    (∀ column ∈ columns, ∀ type, column.valueType = some type → type ∈ ValueType.builtins) ∧
      ∃ t', Runs (v.discover sql args) st' columns t' ∧ t.Alike R t' := by
  obtain ⟨prepared, values, bound, described, rfl⟩ := runs_discover.1 runs
  obtain ⟨again, bound', described'⟩ := prepared_again repeats alike.connection bound
  obtain ⟨same, next⟩ := described' columns described
  refine ⟨Connection.describe_mem described, _,
    runs_discover.2 ⟨again, values, bound', same, rfl⟩, ?_⟩
  exact ⟨next, alike.shapes⟩

/-- The fields of a row that are filled in fit what its columns were. -/
theorem checkFields_again (again : Repetition v R f unit unit' edits shapes) {row : String}
    {isMeta : Bool} {columns : List ColumnInfo}
    (known : ∀ column ∈ columns, ∀ type, column.valueType = some type → type ∈ ValueType.builtins)
    (covered : ∃ shape, shapes.get? (unit.qualified row) = some shape ∧
      shape.Covers isMeta columns)
    (fits : v.checkFields (unit.qualified row) ((unit.row? row).bind (·.fields)) isMeta columns =
      .ok ()) :
    v.checkFields (unit.qualified row) ((unit'.row? row).bind (·.fields)) isMeta columns =
      .ok () := by
  rcases again.filled.row? row with ⟨none, none'⟩ | ⟨r, r', here, there, same⟩
  · rw [none, Option.bind_none] at fits
    rw [none', Option.bind_none, fits]
  · rw [here, Option.bind_some] at fits
    rw [there, Option.bind_some]
    obtain ⟨line, fields⟩ := same.fields
    cases declared : r.fields with
    | some list =>
        rw [declared, Option.some_or] at fields
        rw [declared] at fits
        rw [fields, fits]
    | none =>
        rw [declared, Option.none_or] at fields
        rw [declared] at fits
        cases discovered : f.fields r with
        | none =>
            rw [discovered, Option.map_none] at fields
            rw [fields, fits]
        | some list =>
            rw [discovered, Option.map_some] at fields
            obtain ⟨shape, chosen, made⟩ := Option.bind_eq_some_iff.1 discovered
            have name : r.name.name = row := by
              simpa using List.find?_some here
            have recorded := again.found.row r shape chosen
            obtain ⟨_, recorded', covers⟩ := covered
            rw [name, recorded'] at recorded
            cases recorded
            rw [fields]
            unfold checkFields
            dsimp only
            split
            · exact DeclaredRow.check_discovered again.builtins made covers
                (columnsTyped fits known) (again.builtin _ _ recorded')
            · rfl

theorem checkRow_again (again : Repetition v R f unit unit' edits shapes)
    (statement : s.Filled f s') (alike : st.Alike R st') {row row' : Ident}
    (same : row'.name = row.name) {columns : List ColumnInfo}
    (known : ∀ column ∈ columns, ∀ type, column.valueType = some type → type ∈ ValueType.builtins)
    (runs : Runs (v.checkRow ⟨unit, m, s⟩ typed row columns) st checked t)
    (below : t.shapes.Below shapes) :
    checked.edit = none ∧
      ∃ t', Runs (v.checkRow ⟨unit', m', s'⟩ typed row' columns) st' { checked with edit := none }
        t' ∧ t.Alike R t' := by
  obtain ⟨fits, shape, next, recorded, rfl, rfl⟩ := runs_checkRow.1 runs
  obtain ⟨get, covers, _, _⟩ := ShapeRegistry.record_eq_ok recorded
  obtain ⟨wide, recorded', wider⟩ := below _ shape (by rw [get, if_pos rfl])
  have fits' := checkFields_again again known ⟨wide, recorded', covers.trans wider⟩ fits
  refine ⟨rfl, { st' with shapes := next }, runs_checkRow.2 ⟨?_, shape, next, ?_, rfl, ?_⟩, ?_⟩
  · dsimp only
    rw [again.filled.qualified, same, statement.convention]
    exact fits'
  · have location : (⟨unit', m', s'⟩ : Site).location = (⟨unit, m, s⟩ : Site).location := by
      unfold Site.location
      rw [again.filled.path, statement.line]
    dsimp only
    rw [again.filled.qualified, same, statement.convention, alike.shapes, location]
    exact recorded
  · rw [same]
  · exact ⟨alike.connection, rfl⟩

/-- A value whose type was found is declared with that type; there is no edit left. -/
theorem valueChecked_again (builtins : v.registry.HasBuiltins) (filled : unit.Filled f unit')
    (method : m.Filled f m') (statement : s.Filled f s') {declared : Option ValueType}
    {span span' : Span} {columns : List ColumnInfo}
    (known : ∀ column ∈ columns, ∀ type, column.valueType = some type → type ∈ ValueType.builtins)
    (passed : v.valueChecked ⟨unit, m, s⟩ typed declared span columns = .ok checked)
    (written : ∀ type ∈ ValueType.builtins, checked.edit = some ⟨span, type.name⟩ →
      f.value span = type) :
    checked.edit = (Target.value declared span).edit? f ∧
      v.valueChecked ⟨unit', m', s'⟩ typed (some (declared.getD (f.value span))) span' columns =
        .ok { checked with edit := none } := by
  have owner : (⟨unit', m', s'⟩ : Site).owner = (⟨unit, m, s⟩ : Site).owner :=
    filled.methodOwner method
  unfold valueChecked at passed ⊢
  dsimp only at passed ⊢
  rw [statement.convention, owner]
  cases fits : DeclaredValue.check v.registry s.convention (⟨unit, m, s⟩ : Site).owner declared
      columns with
  | error e => simp [fits, bind, Except.bind] at passed
  | ok type =>
      simp only [fits, bind, Except.bind, pure, Except.pure, Except.ok.injEq] at passed
      subst passed
      cases declared with
      | some declared =>
          rw [Option.getD_some, fits]
          exact ⟨rfl, rfl⟩
      | none =>
          obtain ⟨member, fits'⟩ := DeclaredValue.check_discovered builtins fits known
          have same : f.value span = type := written type member rfl
          rw [Option.getD_none, same, fits']
          exact ⟨by rw [Target.edit?, same]; rfl, rfl⟩

theorem checkQuery_again (again : Repetition v R f unit unit' edits shapes)
    (method : m.Filled f m') (statement : s.Filled f s') (alike : st.Alike R st') {sql : String}
    {args : Arguments} (runs : Runs (v.checkQuery ⟨unit, m, s⟩ typed sql args) st checked t)
    (written : ∀ edit, checked.edit = some edit → edit ∈ edits.edits)
    (below : t.shapes.Below shapes) :
    checked.edit = s.target.edit? f ∧
      ∃ t', Runs (v.checkQuery ⟨unit', m', s'⟩ typed sql args) st' { checked with edit := none }
        t' ∧ t.Alike R t' := by
  obtain ⟨columns, u, discovered, rest⟩ := runs_checkQuery.1 runs
  obtain ⟨known, u', discovered', alike'⟩ := discover_again again.repeats alike discovered
  have targets := statement.target
  dsimp only at rest
  simp only [runs_checkQuery]
  generalize target : s.target = d, s'.target = d' at rest targets
  cases targets with
  | none =>
      obtain ⟨rfl, rfl⟩ := rest
      exact ⟨rfl, u', ⟨columns, u', discovered', rfl, rfl⟩, alike'⟩
  | row same =>
      obtain ⟨edit, t', rest', next⟩ := checkRow_again again statement alike' same known rest below
      exact ⟨edit, t', ⟨columns, u', discovered', rest'⟩, next⟩
  | value =>
      obtain ⟨passed, rfl⟩ := rest
      obtain ⟨edit, passed'⟩ := valueChecked_again again.builtins again.filled method statement
        known passed fun type member same => again.found.value _ type member (written _ same)
      exact ⟨edit, u', ⟨columns, u', discovered', passed', rfl⟩, alike'⟩

/-- A statement that passed passes again, with its target filled in; what it had to write is
written. -/
theorem statement_again (again : Repetition v R f unit unit' edits shapes)
    (method : m.Filled f m') (statement : s.Filled f s') (readsValue : Scanner.ReadsValue s)
    (alike : st.Alike R st') {params : ParamTable}
    (runs : Runs (v.statement params ⟨unit, m, s⟩) st checked t)
    (written : ∀ edit, checked.edit = some edit → edit ∈ edits.edits)
    (below : t.shapes.Below shapes) :
    checked.edit = s.target.edit? f ∧
      ∃ t', Runs (v.statement params ⟨unit', m', s'⟩) st' { checked with edit := none } t' ∧
        t.Alike R t' := by
  have convention := statement.convention
  have reads (mutation : s.convention.isMutation = true) : s.target.edit? f = none := by
    cases target : s.target with
    | none | row => rfl
    | value type span =>
        have single := readsValue type span target
        cases keyword : s.convention <;> rw [keyword] at single mutation <;> cases single
        all_goals cases mutation
  have start := typedStart_filled statement
  by_cases proc : s.convention = .proc
  · obtain ⟨name, args, types, named, resolved, typed, rest⟩ := (runs_statement_proc proc).1 runs
    obtain ⟨edit, t', rest', next⟩ :=
      checkObject_again again.repeats again.filled method statement alike rest
    refine ⟨edit.trans (reads (by rw [proc]; rfl)).symm, t', ?_, next⟩
    refine (runs_statement_proc (convention.trans proc)).2 ⟨name, args, types, ?_, ?_, typed, ?_⟩
    · exact (objectName_filled statement).trans named
    · exact (method.argumentNames (MethodDecl.Filled.names_getD statement.args)).trans resolved
    · rw [← start] at rest'
      exact rest'
  · by_cases nextval : s.convention = .nextval
    · obtain ⟨name, named, rest⟩ := (runs_statement_nextval nextval).1 runs
      obtain ⟨edit, t', rest', next⟩ :=
        checkObject_again again.repeats again.filled method statement alike rest
      rw [← start] at rest'
      refine ⟨edit.trans (reads (by rw [nextval]; rfl)).symm, t', ?_, next⟩
      exact (runs_statement_nextval (convention.trans nextval)).2
        ⟨name, (objectName_filled statement).trans named, rest'⟩
    · obtain ⟨text, q, args, here, parsed, bound, rest⟩ := (runs_statement_sql proc nextval).1 runs
      obtain ⟨text', there, same⟩ : ∃ text', s'.sql = some text' ∧ text'.text = text.text := by
        have sql := statement.sql
        rw [here] at sql
        exact Option.map_eq_some_iff.1 sql
      have bound' := (method.ofStatement statement v.registry params q).trans bound
      have passes (t') (rest' : Runs (if s.convention.isMutation = true then
            v.checkMutation ⟨unit', m', s'⟩
              { typedStart s' with sql := some q.sql, args := args.names } q.sql args
          else
            v.checkQuery ⟨unit', m', s'⟩
              { typedStart s' with sql := some q.sql, args := args.names } q.sql args)
          st' { checked with edit := none } t') :
          Runs (v.statement params ⟨unit', m', s'⟩) st' { checked with edit := none } t' := by
        refine (runs_statement_sql ?_ ?_).2 ⟨text', q, args, there, same ▸ parsed, bound', ?_⟩
        · rw [convention]
          exact proc
        · rw [convention]
          exact nextval
        · dsimp only
          rw [convention]
          exact rest'
      rw [start] at passes
      dsimp only at rest
      by_cases mutation : s.convention.isMutation = true
      · rw [if_pos mutation] at rest
        simp only [if_pos mutation] at passes
        obtain ⟨edit, t', rest', next⟩ :=
          checkMutation_again again.repeats again.filled method statement alike rest
        exact ⟨edit.trans (reads mutation).symm, t', passes t' rest', next⟩
      · rw [if_neg mutation] at rest
        simp only [if_neg mutation] at passes
        obtain ⟨edit, t', rest', next⟩ := checkQuery_again again method statement alike rest written
          below
        exact ⟨edit, t', passes t' rest', next⟩

end Validator

end SqlUnits
