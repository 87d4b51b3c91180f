import SqlUnits.Proofs.Access.RowFactory
import SqlUnits.Proofs.Check.Binding
import SqlUnits.Proofs.Check.Inference
/-!
What parameters are bound to while a unit is checked. The types that were inferred make this safe:
types and mappers are known, and no value of a built-in type is refused. Only the texts of dates
and timestamps are read too late for that.
-/

namespace SqlUnits

/-- No built-in type has a mapper but its own. -/
def Registry.KeepsBuiltins (registry : Registry) : Prop :=
  ∀ type ∈ ValueType.builtins, ∀ mapper, registry.get? type = some mapper →
    mapper = Mapper.builtin type

/-- A value that can be bound as a built-in type: a missing one, or one whose type widens to it. -/
def Value.Fits (type : ValueType) (v : Value) : Prop :=
  v = .null ∨ ∃ actual, v.type? = some actual ∧ actual.widensTo type = true

/-- A sample whose text is no date or no timestamp, and what is said of it. -/
inductive Sample.Unreadable : Sample → ValidationError → Prop
  | date {text reason : String} : Value.parseDate text = .error reason →
      Unreadable (.date text) (.configuration reason)
  | timestamp {text reason : String} : Value.parseTimestamp text = .error reason →
      Unreadable (.timestamp text) (.configuration reason)

theorem Sample.value_spec (sample : Sample) :
    match sample.value with
    | .ok v => v.type? = sample.valueType? ∧ (sample = .null → v = .null)
    | .error e => sample.Unreadable e := by
  cases sample with
  | date text =>
      simp only [value]
      cases read : Value.parseDate text with
      | ok v => exact ⟨Value.parseDate_type read, nofun⟩
      | error reason => exact .date read
  | timestamp text =>
      simp only [value]
      cases read : Value.parseTimestamp text with
      | ok v => exact ⟨Value.parseTimestamp_type read, nofun⟩
      | error reason => exact .timestamp read
  | null => exact ⟨rfl, fun _ => rfl⟩
  | _ => exact ⟨rfl, nofun⟩

theorem Value.default_fits {type : ValueType} (builtin : type ∈ ValueType.builtins) :
    (Value.default type).Fits type := by
  refine .inr ⟨type, ?_, type.widensTo_refl⟩
  cases type with
  | custom name => simp [ValueType.builtins] at builtin
  | _ => rfl

/-- What fits is written, at whatever place. -/
theorem Value.Fits.write {type : ValueType} {v : Value} (fits : v.Fits type) (index : Nat) :
    ∃ stored, (Mapper.builtin type).write index v = .ok stored := by
  rcases fits with rfl | ⟨actual, known, widens⟩
  · exact ⟨.null, rfl⟩
  · have stores : ∃ stored, Mapper.storeValue v = .ok stored := by
      cases v <;> cases known <;> exact ⟨_, rfl⟩
    simpa [Mapper.builtin, known, widens] using stores

namespace Inference

variable {unit : SourceUnit} {registry : Registry} {table : ParamTable} {method : MethodDecl}
  {p : ParamDecl}

theorem ofUnit_describes (inferred : ofUnit unit registry = .ok table) :
    Consistent registry (declarations unit) ∧ table.Describes unit.path (declarations unit) := by
  have none : Consistent registry [] := ⟨nofun, nofun⟩
  have empty : ParamTable.Describes {} unit.path [] := ⟨.nil, fun _ => rfl⟩
  have spec := foldlM_resolveParam_spec (declarations unit) none empty
  have whole : (declarations unit).foldlM (resolveParam unit registry) {} = .ok table := inferred
  simpa only [List.nil_append, whole] using spec

/-- Every parameter of a unit has the type that its own declaration supplies. -/
theorem ofUnit_get? (inferred : ofUnit unit registry = .ok table) (member : method ∈ unit.methods)
    (inside : p ∈ method.params) :
    ∃ type, table.get? p.name.name = some type ∧ p.Supplies registry type := by
  obtain ⟨consistent, describes⟩ := ofUnit_describes inferred
  have among : (method, p) ∈ declarations unit :=
    List.mem_flatMap.2 ⟨method, member, List.mem_map_of_mem inside⟩
  obtain ⟨type, supplies⟩ := consistent.each _ among
  refine ⟨type, ?_, supplies⟩
  have declared : (first? (declarations unit) p.name.name).isSome = true :=
    List.find?_isSome.2 ⟨_, among, beq_self_eq_true _⟩
  obtain ⟨first, found⟩ := Option.isSome_iff_exists.1 declared
  obtain ⟨member', name⟩ := first?_eq_some found
  have same := consistent.agree first member' _ among name
  rw [ParamTable.get?, describes.find?, found, Option.bind_some, same, supplies.supplied]
  rfl

end Inference

theorem ParamDecl.Supplies.sample_fits {registry : Registry} {p : ParamDecl} {type : ValueType}
    {sample : Sample} {v : Value} (supplies : p.Supplies registry type)
    (given : p.sample = some sample) (read : sample.value = .ok v) : v.Fits type := by
  have spec := sample.value_spec
  simp only [read] at spec
  obtain ⟨same, null⟩ := spec
  cases sampled : sample.valueType? with
  | none => exact .inl (null (Sample.valueType?_eq_none.1 sampled))
  | some actual =>
      refine .inr ⟨actual, same.trans sampled, ?_⟩
      have supplied := supplies.supplied
      -- The sample supplies the type itself, or was compared with the one that is declared.
      cases declared : p.type with
      | none =>
          simp only [ParamDecl.supplied?, declared, given, sampled, Option.none_or,
            Option.bind_some, Option.some.injEq] at supplied
          rw [supplied]
          exact type.widensTo_refl
      | some own =>
          simp only [ParamDecl.supplied?, declared, Option.some_or, Option.some.injEq] at supplied
          rw [← supplied]
          exact supplies.fits own declared sample given actual sampled

theorem Registry.resolve_of_contains {registry : Registry} {type : ValueType}
    (mapped : registry.contains type = true) :
    ∃ mapper, registry.get? type = some mapper ∧ registry.resolve type = .ok mapper := by
  obtain ⟨mapper, found⟩ := Option.isSome_iff_exists.1 mapped
  exact ⟨mapper, found, by simp [resolve, found]⟩

section

variable {unit : SourceUnit} {registry : Registry} {table : ParamTable} {method : MethodDecl}
  {name : String} {type : ValueType}

/-- The value of a parameter fits its type; there is none only if its sample cannot be read. -/
theorem executionValue_spec (builtins : registry.KeepsBuiltins)
    (inferred : Inference.ofUnit unit registry = .ok table) (member : method ∈ unit.methods)
    (known : table.get? name = some type) (declared : ∃ p ∈ method.params, p.name.name = name) :
    match registry.executionValue method name type with
    | .ok v => type ∈ ValueType.builtins → v.Fits type
    | .error e => ∃ p sample, method.param? name = some p ∧ p.sample = some sample ∧
        sample.Unreadable e := by
  obtain ⟨p, inside, same⟩ := declared
  -- The first parameter of the name counts, and it has the type of all others of that name.
  obtain ⟨p, found⟩ : ∃ p, method.param? name = some p :=
    Option.isSome_iff_exists.1 (List.find?_isSome.2 ⟨p, inside, beq_iff_eq.2 same⟩)
  have inside : p ∈ method.params := List.mem_of_find?_eq_some found
  obtain rfl : p.name.name = name := by
    have named := List.find?_some found
    simpa using named
  obtain ⟨type', known', supplies⟩ := Inference.ofUnit_get? inferred member inside
  obtain rfl : type' = type := Option.some.inj (known'.symm.trans known)
  unfold Registry.executionValue
  rw [found, Option.bind_some]
  cases given : p.sample with
  | none =>
      obtain ⟨mapper, mine, resolved⟩ := Registry.resolve_of_contains supplies.mapped
      simp only [resolved, Except.mapError, Except.map_ok]
      intro builtin
      rw [builtins _ builtin mapper mine]
      exact Value.default_fits builtin
  | some sample =>
      have spec := sample.value_spec
      dsimp only
      cases read : sample.value with
      | ok v => exact fun _ => supplies.sample_fits given read
      | error e =>
          simp only [read] at spec
          exact ⟨p, sample, rfl, given, spec⟩

theorem typeOf_names (inferred : Inference.ofUnit unit registry = .ok table)
    (member : method ∈ unit.methods) {names : List String}
    (declared : ∀ name ∈ names, ∃ p ∈ method.params, p.name.name = name) :
    ∃ types, names.mapM table.typeOf = .ok types ∧
      ∀ name type, (name, type) ∈ names.zip types →
        table.get? name = some type ∧ registry.contains type = true := by
  have each : ∀ name ∈ names, ∃ type, table.typeOf name = .ok type := by
    intro name among
    obtain ⟨p, inside, rfl⟩ := declared name among
    obtain ⟨type, known, _⟩ := Inference.ofUnit_get? inferred member inside
    exact ⟨type, ParamTable.typeOf_eq_ok.2 known⟩
  obtain ⟨types, typed⟩ := exists_mapM each
  refine ⟨types, typed, fun name type paired => ?_⟩
  have known := (List.forall₂_iff_zip.1 (mapM_eq_ok_iff.1 typed)).2 paired
  rw [ParamTable.typeOf_eq_ok] at known
  obtain ⟨p, inside, rfl⟩ := declared name (List.of_mem_zip paired).1
  obtain ⟨type', known', supplies⟩ := Inference.ofUnit_get? inferred member inside
  obtain rfl : type' = type := Option.some.inj (known'.symm.trans known)
  exact ⟨known, supplies.mapped⟩

/-- Inferred types make binding safe. All arguments of a statement have types, these have mappers,
and a value of a built-in type is written at any place; a statement whose placeholders resolve has
no arguments only if the sample of one of them is a date or a timestamp that cannot be read. -/
theorem ofUnit_binds (builtins : registry.KeepsBuiltins)
    (inferred : Inference.ofUnit unit registry = .ok table) (member : method ∈ unit.methods) :
    (∀ args names, method.argumentNames args = .ok names →
      ∃ types, names.mapM table.typeOf = .ok types) ∧
    ∀ (s : StatementDecl) (q : Query.ParsedQuery) names,
      method.bindPlaceholders s.args q = .ok names →
      ∃ types, names.mapM table.typeOf = .ok types ∧
        (∀ name type, (name, type) ∈ names.zip types → ∃ mapper,
          registry.resolve type = .ok mapper ∧ (type ∈ ValueType.builtins →
            ∀ v, registry.executionValue method name type = .ok v →
              ∀ index, ∃ stored, mapper.write index v = .ok stored)) ∧
        match Arguments.ofStatement registry table method s q with
        | .ok args => args.names = names ∧ args.types = types ∧
            List.Forall₂ (fun (name, type) v => registry.executionValue method name type = .ok v)
              (names.zip types) args.values
        | .error e => ∃ name ∈ names, ∃ p sample, method.param? name = some p ∧
            p.sample = some sample ∧ sample.Unreadable e := by
  constructor
  · intro args names resolved
    obtain ⟨types, typed, _⟩ :=
      typeOf_names inferred member (MethodDecl.argumentNames_mem resolved)
    exact ⟨types, typed⟩
  · intro s q names bound
    obtain ⟨_, declared⟩ := MethodDecl.bindPlaceholders_eq_ok bound
    obtain ⟨types, typed, known⟩ := typeOf_names inferred member declared
    have value {name : String} {type : ValueType} (paired : (name, type) ∈ names.zip types) :=
      executionValue_spec builtins inferred member (known name type paired).1
        (declared name (List.of_mem_zip paired).1)
    refine ⟨types, typed, ?_, ?_⟩
    · intro name type paired
      obtain ⟨mapper, mine, resolved⟩ := Registry.resolve_of_contains (known name type paired).2
      refine ⟨mapper, resolved, fun builtin v executed index => ?_⟩
      have spec := value paired
      simp only [executed] at spec
      rw [builtins type builtin mapper mine]
      exact (spec builtin).write index
    · unfold Arguments.ofStatement
      simp only [bound, typed, bind, Except.bind]
      cases executed : (names.zip types).mapM fun (name, type) =>
          registry.executionValue method name type with
      | ok values => exact ⟨rfl, rfl, mapM_eq_ok_iff.1 executed⟩
      | error e =>
          obtain ⟨⟨name, type⟩, paired, failed⟩ := mapM_eq_error executed
          have spec := value paired
          simp only [failed] at spec
          exact ⟨name, (List.of_mem_zip paired).1, spec⟩

theorem ofUnit_binds_sampled :
    let text := "unit A fn m(n: double=7, d=date \x272024-02-30\x27)" ++
      "\x7bone R\x7bSELECT :n, :d\x7d\x7drow R"
    ∃ unit table method, SourceUnit.scan "a" text = .ok unit ∧
      Inference.ofUnit unit .builtins = .ok table ∧ method ∈ unit.methods ∧
      (∃ v, Registry.builtins.executionValue method "n" .double = .ok v ∧
        ∀ index, ∃ stored, (Mapper.builtin .double).write index v = .ok stored) ∧
      ∃ name ∈ ["n", "d"], ∃ p sample e, method.param? name = some p ∧ p.sample = some sample ∧
        sample.Unreadable e := by
  intro text
  have shown : ((SourceUnit.scan "a" text).toOption.bind fun unit =>
      (Inference.ofUnit unit .builtins).toOption.bind fun table =>
        unit.methods.head?.bind fun m => m.statements.head?.bind fun s => s.sql.bind fun sql =>
          (Query.parse sql.text).toOption.bind fun q =>
            (m.bindPlaceholders s.args q).toOption.bind fun names =>
              (Registry.builtins.executionValue m "n" .double).toOption.map fun _ =>
                (names, table.get? "n", (Arguments.ofStatement .builtins table m s q).isOk)) =
      some (["n", "d"], some .double, false) := by
    decide +kernel
  obtain ⟨unit, read, shown⟩ := Option.bind_eq_some_iff.1 shown
  obtain ⟨table, inferred, shown⟩ := Option.bind_eq_some_iff.1 shown
  obtain ⟨m, member, shown⟩ := Option.bind_eq_some_iff.1 shown
  obtain ⟨s, _, shown⟩ := Option.bind_eq_some_iff.1 shown
  obtain ⟨sql, _, shown⟩ := Option.bind_eq_some_iff.1 shown
  obtain ⟨q, _, shown⟩ := Option.bind_eq_some_iff.1 shown
  obtain ⟨names, bound, shown⟩ := Option.bind_eq_some_iff.1 shown
  obtain ⟨v, executed, shown⟩ := Option.map_eq_some_iff.1 shown
  simp only [Prod.mk.injEq] at shown
  obtain ⟨rfl, type, fails⟩ := shown
  have inferred := eq_ok_of_toOption inferred
  have member := List.mem_of_head? member
  have builtins : Registry.builtins.KeepsBuiltins := by
    intro type builtin mapper found
    exact Option.some.inj (found.symm.trans (Registry.hasBuiltins type builtin))
  obtain ⟨types, typed, writes, outcome⟩ :=
    (ofUnit_binds builtins inferred member).2 s q _ (eq_ok_of_toOption bound)
  refine ⟨unit, table, m, eq_ok_of_toOption read, inferred, member, ?_, ?_⟩
  · have paired : ("n", ValueType.double) ∈ ["n", "d"].zip types := by
      cases mapM_eq_ok_iff.1 typed with
      | cons first _ =>
          rw [ParamTable.typeOf_eq_ok, type] at first
          rw [← Option.some.inj first]
          exact .head _
    obtain ⟨mapper, resolved, each⟩ := writes "n" .double paired
    cases resolved
    exact ⟨v, eq_ok_of_toOption executed, each (by decide) v (eq_ok_of_toOption executed)⟩
  · cases made : Arguments.ofStatement .builtins table m s q with
    | ok args =>
        rw [made] at fails
        cases fails
    | error e =>
        simp only [made] at outcome
        obtain ⟨name, among, p, sample, found, given, unreadable⟩ := outcome
        exact ⟨name, among, p, sample, e, found, given, unreadable⟩

end

end SqlUnits
