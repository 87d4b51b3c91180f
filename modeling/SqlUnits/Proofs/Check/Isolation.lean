import SqlUnits.Proofs.Check.Visit
import SqlUnits.Proofs.Check.Gathering
/-!
What the check of a unit has to do with the rows of other units. Only the shapes of its own rows
are looked at and changed, whether it passes or fails, and wherever it stops.
-/

namespace SqlUnits

namespace ShapeRegistry

/-- Two registries know the same of the rows of a unit. -/
def SameFor (unit : SourceUnit) (shapes others : ShapeRegistry) : Prop :=
  ∀ row, shapes.get? (unit.qualified row) = others.get? (unit.qualified row)

/-- Of rows that no row of a unit is, a registry knows what it did before. -/
def KeepsOthers (unit : SourceUnit) (before after : ShapeRegistry) : Prop :=
  ∀ name, (∀ row, name ≠ unit.qualified row) → after.get? name = before.get? name

variable {unit : SourceUnit}

theorem SameFor.trans {a b c : ShapeRegistry} (first : a.SameFor unit b)
    (second : b.SameFor unit c) : a.SameFor unit c :=
  fun row => (first row).trans (second row)

theorem KeepsOthers.refl (unit : SourceUnit) (shapes : ShapeRegistry) :
    shapes.KeepsOthers unit shapes :=
  fun _ _ => rfl

theorem KeepsOthers.trans {a b c : ShapeRegistry} (first : a.KeepsOthers unit b)
    (second : b.KeepsOthers unit c) : a.KeepsOthers unit c :=
  fun name apart => (second name apart).trans (first name apart)

theorem record_alike {shapes others : ShapeRegistry} {row : String}
    (same : shapes.get? row = others.get? row) (isMeta : Bool) (columns : List ColumnInfo)
    (site : Location) :
    (∃ e, shapes.record row isMeta columns site = .error e ∧
        others.record row isMeta columns site = .error e) ∨
      ∃ shape next next', shapes.record row isMeta columns site = .ok (shape, next) ∧
        others.record row isMeta columns site = .ok (shape, next') := by
  unfold record
  rw [same]
  cases others.get? row with
  | none => exact .inr ⟨_, _, _, rfl, rfl⟩
  | some shape =>
      simp only [bind, Except.bind]
      cases shape.merge isMeta columns site with
      | error e => exact .inl ⟨e, rfl, rfl⟩
      | ok merged => exact .inr ⟨merged, _, _, rfl, rfl⟩

end ShapeRegistry

/-- Two states that are the same for a unit. They may differ in the rows of others, and in what the
checker was asked. -/
structure CheckState.SameFor (unit : SourceUnit) (s t : CheckState) : Prop where
  connection : s.connection = t.connection
  shapes : s.shapes.SameFor unit t.shapes

/-- A computation that looks at no rows but those of a unit, and leaves the others alone. -/
structure Confined (unit : SourceUnit) (x : ExceptT ε (StateM CheckState) α) : Prop where
  same : ∀ {s t : CheckState}, s.SameFor unit t →
    ((x.run).run s).1 = ((x.run).run t).1 ∧ ((x.run).run s).2.SameFor unit ((x.run).run t).2
  others : ∀ s : CheckState, s.shapes.KeepsOthers unit ((x.run).run s).2.shapes

theorem Confined.composes (unit : SourceUnit) : Composes fun x => Confined unit x where
  pure _ := ⟨fun alike => ⟨rfl, alike⟩, fun s => .refl unit s.shapes⟩
  throw _ := ⟨fun alike => ⟨rfl, alike⟩, fun s => .refl unit s.shapes⟩
  bind := by
    intro _ _ _ x k first second
    constructor
    · intro s t alike
      obtain ⟨same, after⟩ := first.same alike
      rw [run_bind, run_bind]
      cases left : (x.run).run s with
      | mk result s' =>
          cases right : (x.run).run t with
          | mk result' t' =>
              rw [left, right] at same after
              -- One result for both: they go on together, or stop together.
              obtain rfl : result = result' := same
              cases result with
              | error e => exact ⟨rfl, after⟩
              | ok a => exact (second a).same after
    · intro s
      have kept := first.others s
      rw [run_bind]
      cases outcome : (x.run).run s with
      | mk result s' =>
          rw [outcome] at kept
          cases result with
          | error e => exact kept
          | ok a => exact kept.trans ((second a).others s')
  adapt := by
    intro _ _ _ x confined f
    refine ⟨fun alike => ?_, confined.others⟩
    obtain ⟨same, after⟩ := confined.same alike
    exact ⟨congrArg (Except.mapError f) same, after⟩

namespace Validator

theorem askChecker_confined (v : Validator) (unit : SourceUnit) (site : Site) (call : CheckCall) :
    Confined unit (v.askChecker site call) := by
  constructor
  · intro s t alike
    rw [askChecker_run, askChecker_run, alike.connection]
    unfold asked
    split <;> exact ⟨rfl, alike.connection, alike.shapes⟩
  · intro s
    rw [askChecker_run, asked_shapes]
    exact .refl unit s.shapes

theorem prepare_confined (v : Validator) (unit : SourceUnit) (sql : String) (args : Arguments) :
    Confined unit (v.prepare sql args) := by
  constructor
  · intro s t alike
    rw [prepare_run, prepare_run, alike.connection]
    exact ⟨rfl, alike⟩
  · intro s
    rw [prepare_run]
    exact .refl unit s.shapes

theorem discover_confined (v : Validator) (unit : SourceUnit) (sql : String) (args : Arguments) :
    Confined unit (v.discover sql args) := by
  constructor
  · intro s t alike
    rw [discover_run, discover_run, alike.connection]
    split
    · exact ⟨rfl, alike⟩
    · exact ⟨rfl, rfl, alike.shapes⟩
  · intro s
    rw [discover_run]
    split <;> exact .refl unit s.shapes

theorem checkRow_confined (v : Validator) (site : Site) (typed : TypedStatement) (row : Ident)
    (columns : List ColumnInfo) : Confined site.unit (v.checkRow site typed row columns) := by
  constructor
  · intro s t alike
    rw [checkRow_run, checkRow_run]
    cases v.checkFields _ _ _ columns with
    | error e => exact ⟨rfl, alike⟩
    | ok fits =>
        rcases ShapeRegistry.record_alike (alike.shapes row.name)
            (site.statement.convention == .metadata) columns site.location with
          ⟨e, here, there⟩ | ⟨shape, next, next', here, there⟩
        · rw [here, there]
          exact ⟨rfl, alike⟩
        · rw [here, there]
          refine ⟨rfl, alike.connection, fun own => ?_⟩
          show next.get? _ = next'.get? _
          rw [(ShapeRegistry.record_eq_ok here).1, (ShapeRegistry.record_eq_ok there).1,
            alike.shapes own]
  · intro s name apart
    rw [checkRow_run]
    cases v.checkFields _ _ _ columns with
    | error e => rfl
    | ok fits =>
        cases recorded : s.shapes.record (site.unit.qualified row.name)
            (site.statement.convention == .metadata) columns site.location with
        | error e => rfl
        | ok pair =>
            -- A row is recorded under the name of its unit.
            show pair.2.get? name = _
            rw [(ShapeRegistry.record_eq_ok recorded).1, if_neg (apart row.name)]

theorem checkQuery_confined (v : Validator) (site : Site) (typed : TypedStatement) (sql : String)
    (args : Arguments) : Confined site.unit (v.checkQuery site typed sql args) := by
  have rules := Confined.composes site.unit
  apply rules.bind (discover_confined v site.unit sql args)
  intro columns
  cases site.statement.target with
  | row row => exact checkRow_confined v site typed row columns
  | value declared span => exact rules.bind (rules.lift _) fun _ => rules.pure _
  | none => exact rules.pure _

theorem parts_confined (v : Validator) (unit : SourceUnit) :
    v.HasParts unit fun x => Confined unit x where
  ask method s call := askChecker_confined v unit ⟨unit, method, s⟩ call
  prepare sql args _ :=
    (Confined.composes unit).bind (prepare_confined v unit sql args) fun _ =>
      (Confined.composes unit).pure _
  query method s typed sql args := checkQuery_confined v ⟨unit, method, s⟩ typed sql args

theorem validateMethods_confined (v : Validator) (unit : SourceUnit) (params : ParamTable) :
    Confined unit (v.validateMethods unit params) :=
  (Confined.composes unit).validateMethods (v.parts_confined unit) params

end Validator

/-- Connections are copies of one database: what others have left makes no difference. -/
def ConnectionSource.Independent (source : ConnectionSource) : Prop :=
  ∀ stored stored', (source.connect stored).1 = (source.connect stored').1

theorem ConnectionSource.apart_independent (start : Except DriverError Connection) :
    (apart start).Independent :=
  fun _ _ => rfl

theorem ConnectionSource.memory_independent (now : Moment) (script : Option String) :
    (memory now script).Independent := by
  unfold memory
  split <;> exact apart_independent _

namespace Validator

variable {v : Validator} {source : ConnectionSource} {unit : SourceUnit}

/-- A unit is checked with the same result in any two runs that know the same of its rows and open
the same connection, and they know the same of its rows then. -/
theorem validate_same {run run' : RunRecord}
    (copies : (source.connect (run.stored.getD {})).1 = (source.connect (run'.stored.getD {})).1)
    (same : run.shapes.SameFor unit run'.shapes) :
    (v.validate source unit run).1 = (v.validate source unit run').1 ∧
      (v.validate source unit run).2.shapes.SameFor unit
        (v.validate source unit run').2.shapes := by
  unfold validate
  cases Inference.ofUnit unit v.registry with
  | error failure => exact ⟨rfl, same⟩
  | ok params =>
      dsimp only
      cases here : source.connect (run.stored.getD {}) with
      | mk opened stored =>
          cases there : source.connect (run'.stored.getD {}) with
          | mk opened' stored' =>
              rw [here, there] at copies
              obtain rfl : opened = opened' := copies
              cases opened with
              | error e => exact ⟨rfl, same⟩
              | ok connection =>
                  have start : CheckState.SameFor unit ⟨connection, run.shapes, run.checks⟩
                      ⟨connection, run'.shapes, run'.checks⟩ := ⟨rfl, same⟩
                  obtain ⟨result, after⟩ := (validateMethods_confined v unit params).same start
                  exact ⟨result, after.shapes⟩

/-- The check of a unit leaves the rows of others alone. -/
theorem validate_keepsOthers (v : Validator) (source : ConnectionSource) (unit : SourceUnit)
    (run : RunRecord) : run.shapes.KeepsOthers unit (v.validate source unit run).2.shapes := by
  unfold validate
  cases Inference.ofUnit unit v.registry with
  | error failure => exact .refl unit run.shapes
  | ok params =>
      rcases source.connect (run.stored.getD {}) with ⟨_ | connection, stored⟩
      · exact .refl unit run.shapes
      · exact (validateMethods_confined v unit params).others ⟨connection, run.shapes, run.checks⟩

end Validator

end SqlUnits
