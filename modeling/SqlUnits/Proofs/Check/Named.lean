import SqlUnits.Proofs.Artifact.Reading
import SqlUnits.Proofs.Check.Binding
import SqlUnits.Proofs.Check.Inference
import SqlUnits.Proofs.Unit.Standing
/-!
What is made of a unit can be stored: each type in its artifact was read as a name or is built in,
and each line is one of its text.
-/

namespace SqlUnits

theorem ValueType.IsNamed.builtin {type : ValueType} (member : type ∈ builtins) :
    type.IsNamed :=
  ⟨type.name, by cases type <;> first | rfl | simp [builtins] at member⟩

theorem FieldType.IsNamed.value {type : ValueType} (member : type ∈ ValueType.builtins) :
    (FieldType.value type).IsNamed :=
  ⟨type.name, by cases type <;> first | rfl | simp [ValueType.builtins] at member⟩

/-- A unit whose types are read as names, and whose statements stand on lines of its text. -/
structure SourceUnit.Named (unit : SourceUnit) : Prop where
  rows : ∀ r ∈ unit.rows, ∀ fields ∈ r.fields, ∀ f ∈ fields, f.type.IsNamed
  params : ∀ m ∈ unit.methods, ∀ p ∈ m.params, ∀ type ∈ p.type, type.IsNamed
  targets : ∀ m ∈ unit.methods, ∀ s ∈ m.statements, ∀ type span,
    s.target = .value (some type) span → type.IsNamed
  lines : ∀ m ∈ unit.methods, ∀ s ∈ m.statements, s.line ≤ unit.source.length + 1

namespace Scanner

variable {lines : LineIndex} {c d : Cursor}

theorem RowAt.field {keyword : Ident} {r : RowDecl} (at_ : RowAt lines keyword c r d) :
    ∀ fields ∈ r.fields, ∀ f ∈ fields, ∃ c d, FieldAt lines c f d := by
  obtain ⟨⟨m, _, note⟩, _, _⟩ := at_
  intro fields declared f member
  rcases note with ⟨_, _, _, listed, same⟩ | ⟨_, none_, _⟩
  · obtain rfl := Option.some.inj (declared.symm.trans same)
    obtain ⟨c, d, _, there, _⟩ := listed.each (fun _ _ _ field => field.before) f member
    exact ⟨c, d, there⟩
  · rw [none_] at declared
    cases declared

/-- Every row type of a unit stands somewhere in its text. -/
theorem ItemsAt.row_each {draft last : Draft} (at_ : ItemsAt lines draft c last d)
    (before : ∀ r ∈ draft.rows, ∃ keyword m n, RowAt lines keyword m r n) :
    ∀ r ∈ last.rows, ∃ keyword m n, RowAt lines keyword m r n := by
  induction at_ with
  | done => exact before
  | more first _ ih =>
      refine ih ?_
      cases first with
      | unit | method => exact before
      | row _ _ here _ =>
          exact List.forall_mem_append.2 ⟨before, List.forall_mem_singleton.2 ⟨_, _, _, here⟩⟩

theorem ParamAt.isNamed {p : ParamDecl} (at_ : ParamAt lines c p d) :
    ∀ type ∈ p.type, type.IsNamed := by
  obtain ⟨⟨_, _, _, note, _⟩, _, _⟩ := at_
  intro type declared
  rcases note with ⟨_, _, _, ⟨w, _, _, _, rfl⟩, same⟩ | ⟨_, none_, _⟩
  · obtain rfl := Option.some.inj (declared.symm.trans same)
    exact ⟨w.name, rfl⟩
  · rw [none_] at declared
    cases declared

theorem StatementAt.isNamed {s : StatementDecl} (at_ : StatementAt lines c s d)
    {type : ValueType} {span : Span} (target : s.target = .value (some type) span) :
    type.IsNamed := by
  cases at_ with
  | proc | nextval => cases target
  | sql _ _ _ _ there _ _ =>
      obtain rfl : _ = Target.value (some type) span := target
      cases there with
      | @value w _ _ _ _ _ => exact ⟨w.name, rfl⟩

theorem StatementAt.line_le {source : String} {s : StatementDecl}
    (at_ : StatementAt (.ofText source.toList) c s d) (behind : Before ⟨0, source.toList⟩ c) :
    s.line ≤ source.length + 1 := by
  obtain ⟨before, stretch⟩ := behind
  have few : Text.newlines before ≤ before.length := List.count_le_length
  have inside : source.toList.length = before.length + c.rest.length := stretch.length
  have length : source.length = source.toList.length := String.length_toList.symm
  rw [at_.line_eq, line_of_stretch stretch]
  omega

end Scanner

theorem SourceUnit.scan_rowAt {path source : String} {unit : SourceUnit}
    (read : scan path source = .ok unit) :
    ∀ r ∈ unit.rows, ∃ lines keyword c d, Scanner.RowAt lines keyword c r d := by
  obtain ⟨_, _, _, at_, _, _, rfl⟩ := scan_eq_ok.1 read
  exact fun r member => ⟨_, at_.row_each nofun r member⟩

theorem SourceUnit.scan_named {path source : String} {unit : SourceUnit}
    (read : scan path source = .ok unit) : unit.Named := by
  have placed := scan_placed read
  refine ⟨?_, fun m member p inside => ?_, fun m member s inside type span target => ?_,
    fun m member s inside => ?_⟩
  · intro r member fields declared f inside
    obtain ⟨_, _, _, _, at_⟩ := scan_rowAt read r member
    obtain ⟨_, _, _, v, _, _, _, _, _, rfl⟩ := at_.field fields declared f inside
    exact ⟨v.name, rfl⟩
  · obtain ⟨_, _, _, at_⟩ := (placed.methods m member).params p inside
    exact at_.isNamed
  · obtain ⟨_, _, _, at_⟩ := (placed.methods m member).statements s inside
    exact at_.isNamed target
  · obtain ⟨_, _, behind, at_⟩ := (placed.methods m member).statements s inside
    rw [scan_source read]
    exact at_.line_le behind

/-! What a check finds. -/

theorem Inference.ofUnit_named {unit : SourceUnit} {registry : Registry} {table : ParamTable}
    (named : unit.Named) (inferred : ofUnit unit registry = .ok table) {name : String}
    {type : ValueType} (known : table.get? name = some type) : type.IsNamed := by
  have none_ : Consistent registry [] := ⟨fun _ member => absurd member List.not_mem_nil,
    fun _ member => absurd member List.not_mem_nil⟩
  have empty : ParamTable.Describes {} unit.path [] := ⟨.nil, fun _ => rfl⟩
  have spec := foldlM_resolveParam_spec (declarations unit) none_ empty
  change (declarations unit).foldlM (resolveParam unit registry) {} = _ at inferred
  rw [inferred] at spec
  obtain ⟨_, describes⟩ := spec
  obtain ⟨⟨_, site⟩, found, rfl⟩ := Option.map_eq_some_iff.1 known
  rw [describes.find?, List.nil_append] at found
  obtain ⟨⟨method, p⟩, first, located⟩ := Option.bind_eq_some_iff.1 found
  obtain ⟨kind, supplied, same⟩ := Option.map_eq_some_iff.1 located
  cases same
  obtain ⟨m, member, inside⟩ := List.mem_flatMap.1 (first?_eq_some first).1
  obtain ⟨_, inside, same⟩ := List.mem_map.1 inside
  cases same
  unfold ParamDecl.supplied? at supplied
  rcases Option.or_eq_some_iff.1 supplied with declared | ⟨_, sampled⟩
  · exact named.params _ member _ inside _ declared
  · obtain ⟨sample, _, type⟩ := Option.bind_eq_some_iff.1 sampled
    exact .builtin (Sample.valueType?_mem type)

/-- The type of a value is the declared one, or that of a column. -/
theorem DeclaredValue.check_eq_ok {registry : Registry} {convention : Convention}
    {owner : String} {declared : Option ValueType} {columns : List ColumnInfo} {type : ValueType}
    (checked : check registry convention owner declared columns = .ok type) :
    declared = some type ∨ ∃ column ∈ columns, column.valueType = some type := by
  unfold check at checked
  simp only [bind, Except.bind, pure, Except.pure, throw, throwThe, MonadExceptOf.throw] at checked
  cases head : columns.head?.bind (·.valueType) with
  | none =>
      cases declared with
      | none =>
          simp only [head] at checked
          split at checked <;> cases checked
      | some kind =>
          simp only [head] at checked
          split at checked
          · cases checked
          · split at checked
            · cases checked
            · split at checked <;> cases checked
              exact .inl rfl
  | some found =>
      cases declared with
      | none =>
          simp only [head] at checked
          split at checked <;> cases checked
          obtain ⟨column, first, known⟩ := Option.bind_eq_some_iff.1 head
          exact .inr ⟨column, List.mem_of_mem_head? first, known⟩
      | some kind =>
          simp only [head] at checked
          split at checked
          · cases checked
          · split at checked
            · cases checked
            · split at checked <;> cases checked
              exact .inl rfl

namespace Validator

variable {v : Validator} {site : Site} {s t : CheckState} {checked : Checked} {unit : SourceUnit}
  {u : ValidatedUnit}

theorem checkQuery_named {typed : TypedStatement} {sql : String} {args : Arguments}
    (runs : Runs (v.checkQuery site typed sql args) s checked t) (none_ : typed.valueType = none)
    (named : ∀ type span, site.statement.target = .value (some type) span → type.IsNamed) :
    (∀ type ∈ checked.statement.valueType, type.IsNamed) ∧
      checked.statement.line = typed.line := by
  obtain ⟨columns, _, discovered, rest⟩ := runs_checkQuery.1 runs
  obtain ⟨_, _, _, described, _⟩ := runs_discover.1 discovered
  have known := Connection.describe_mem described
  split at rest
  · obtain ⟨_, _, _, _, _, rfl⟩ := runs_checkRow.1 rest
    refine ⟨fun type there => ?_, rfl⟩
    rw [none_] at there
    cases there
  · next declared span target =>
    obtain ⟨rest, _⟩ := rest
    unfold valueChecked at rest
    cases found : DeclaredValue.check v.registry site.statement.convention site.owner declared
        columns with
    | error e => simp [found, bind, Except.bind] at rest
    | ok kind =>
        simp only [found, bind, Except.bind, pure, Except.pure, Except.ok.injEq] at rest
        subst rest
        refine ⟨?_, rfl⟩
        rintro _ ⟨⟩
        rcases DeclaredValue.check_eq_ok found with rfl | ⟨column, member, type⟩
        · exact named kind span target
        · exact .builtin (known column member kind type)
  · obtain ⟨rfl, _⟩ := rest
    refine ⟨fun type there => ?_, rfl⟩
    rw [none_] at there
    cases there

theorem statement_named {params : ParamTable} (runs : Runs (v.statement params site) s checked t)
    (named : ∀ type span, site.statement.target = .value (some type) span → type.IsNamed) :
    (∀ type ∈ checked.statement.valueType, type.IsNamed) ∧
      checked.statement.line = site.statement.line := by
  by_cases proc : site.statement.convention = .proc
  · obtain ⟨_, _, _, _, _, _, rest⟩ := (runs_statement_proc proc).1 runs
    obtain ⟨_, _, _, rfl⟩ := runs_checkObject.1 rest
    exact ⟨nofun, rfl⟩
  by_cases nextval : site.statement.convention = .nextval
  · obtain ⟨_, _, rest⟩ := (runs_statement_nextval nextval).1 runs
    obtain ⟨_, _, _, rfl⟩ := runs_checkObject.1 rest
    exact ⟨nofun, rfl⟩
  obtain ⟨_, _, _, _, _, _, rest⟩ := (runs_statement_sql proc nextval).1 runs
  split at rest
  · obtain ⟨_, _, _, _, _, _, _, rfl⟩ := runs_checkMutation.1 rest
    exact ⟨nofun, rfl⟩
  · exact checkQuery_named rest rfl named

theorem Passing.methods_storable {run last : RunRecord} {opened : Connection}
    (passing : Passing v unit u run last opened t) (named : unit.Named)
    (fits : unit.source.length + 1 < twoPow 64) : ∀ m ∈ u.methods, m.Storable := by
  intro m member
  refine ⟨fun p inside => ?_, fun statement inside => ?_⟩
  · obtain ⟨method, _, typedAs⟩ := (forall₂_mem passing.typed).2 m member
    exact Inference.ofUnit_named named passing.inferred (typedAs.typeOf p inside)
  · obtain ⟨method, known, _, decl, among, _, _, _, runs, rfl, _⟩ :=
      passing.visited member inside
    obtain ⟨type, line⟩ := statement_named runs (named.targets method known decl among)
    have low := named.lines method known decl among
    exact ⟨type, by rw [line]; exact Nat.lt_of_le_of_lt low fits⟩

end Validator

/-- The types of the fields of a row are named, if those of its declaration are and its columns have
built-in ones. -/
theorem TypedRow.ofDecl?_named {row : RowDecl} {shape : Option RowShape} {typed : TypedRow}
    (made : ofDecl? row shape = some typed)
    (declared : ∀ fields ∈ row.fields, ∀ f ∈ fields, f.type.IsNamed)
    (known : ∀ shape' ∈ shape, ∀ column ∈ shape'.columns, ∀ t, column.valueType = some t →
      t ∈ ValueType.builtins) : ∀ f ∈ typed.fields, f.type.IsNamed := by
  unfold ofDecl? at made
  split at made
  · next fields there =>
    cases made
    intro f member
    obtain ⟨⟨decl, index⟩, inside, rfl⟩ := List.mem_map.1 member
    exact declared fields there decl (List.fst_mem_of_mem_zipIdx inside)
  · next shape there =>
    obtain ⟨fields, discovered, rfl⟩ := Option.map_eq_some_iff.1 made
    intro f member
    obtain ⟨column, inside, type, _⟩ := (forall₂_mem (fieldsFrom_describes discovered)).2 f member
    unfold fieldType? at type
    split at type
    · exact ⟨"meta", Option.some.inj type⟩
    · obtain ⟨t, type, same⟩ := Option.map_eq_some_iff.1 type
      rw [← same]
      exact .value (known shape rfl column inside t type)
  · cases made

namespace Validator

variable {v : Validator} {unit : SourceUnit} {u : ValidatedUnit} {path source : String}
  {connections : ConnectionSource} {run last : RunRecord}

/-- What is made of a unit that passed can be stored. -/
theorem validate_storable (read : SourceUnit.scan path source = .ok unit)
    (passed : v.validate connections unit run = (.ok u, last))
    (fits : source.length + 1 < twoPow 64) {shapes : ShapeRegistry} (builtin : shapes.Builtin) :
    (TypedUnit.build unit u.methods shapes).Storable := by
  have named := SourceUnit.scan_named read
  obtain ⟨_, _, _, _, passing⟩ := validate_passing passed
  rw [← SourceUnit.scan_source read] at fits
  refine ⟨fun r member => ?_, passing.methods_storable named fits⟩
  obtain ⟨decl, declared, made⟩ := List.mem_filterMap.1 member
  exact TypedRow.ofDecl?_named made (named.rows decl declared) fun shape found =>
    builtin _ shape found

end Validator

end SqlUnits
