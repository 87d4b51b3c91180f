import SqlUnits.Access.RowFactory
import SqlUnits.Proofs.Check.Binding
import SqlUnits.Proofs.Check.Discovered
/-!
Factories for rows whose fields fit the columns of a result. Every mapper begins where the ones
before it end, together they take all columns, and values of built-in types are never refused by
the row that they are for.
-/

namespace SqlUnits

/-! Row types of the artifact, as their code is generated. -/

/-- What the value of a field is converted to. -/
def TypedField.target (field : TypedField) : TargetType :=
  match field.type with
  | .descriptor => .descriptor
  | .value type => if field.nullable = .yes then .optional type.target else type.target

/-- The row type that code declares for a row: a value is taken for every field in its turn. -/
def TypedRow.rowType (row : TypedRow) (unit : String) (id : Nat) : RowType (List Value) where
  id := id
  name := unit ++ "::" ++ row.name
  fields := row.fields.map fun f => ⟨f.name, f.type⟩
  construct := fun values => do
    let (taken, _) ← (row.fields.mapM fun f => Taking.take f.name f.target).run values
    pure taken

/-- The mapper that a registry has for a field. -/
def TypedField.ReadBy (registry : Registry) (field : TypedField) (mapper : Mapper) : Prop :=
  ∃ type, field.type = .value type ∧ registry.resolve type = .ok mapper

/-- Rows that take so many columns, as descriptions or as data. -/
inductive TypedRow.Fits (registry : Registry) (row : TypedRow) (count : Nat) : Bool → Prop
  | descriptions (all : ∀ field ∈ row.fields, field.type = .descriptor)
      (length : row.fields.length = count) : Fits registry row count true
  | data {mappers : List Mapper}
      (reads : List.Forall₂ (TypedField.ReadBy registry) row.fields mappers)
      (widths : total (mappers.map (·.columns)) = count) : Fits registry row count false

def TypedRow.IsBuiltin (row : TypedRow) : Prop :=
  ∀ field ∈ row.fields, ∀ type, field.type = .value type → type ∈ ValueType.builtins

/-- The first column of the mapper at a place: those before it have taken theirs. -/
def Mapper.start (mappers : List Mapper) (place : Nat) : Nat :=
  total ((mappers.take place).map (·.columns))

/-- A factory that reads data with mappers which divide the columns among them. -/
structure RowFactory.Divides (factory : RowFactory) (mappers : List Mapper) (count : Nat) :
    Prop where
  fetch : ∀ {α : Type} (row : RowType α) (values : List Stored), factory.fetch row values = do
    let read ← mappers.zipIdx.mapM fun (m, place) => m.read values (Mapper.start mappers place)
    factory.construct row read
  columns : (mappers.zipIdx.flatMap fun (m, place) =>
    List.range' (Mapper.start mappers place) m.columns) = List.range count

namespace RowFactory

/-! Plans. -/

/-- A field that is filled by a mapper. -/
def PlannedBy (plan : FieldPlan) (mapper : Mapper) : Prop :=
  plan.mapper = some mapper ∧ plan.columns = mapper.columns

theorem start_length (done rest : List Mapper) :
    Mapper.start (done ++ rest) done.length = total (done.map (·.columns)) := by
  simp [Mapper.start]

variable {plan : List FieldPlan} {mappers : List Mapper}

theorem readFrom_eq (planned : List.Forall₂ PlannedBy plan mappers) (done : List Mapper)
    (values : List Stored) :
    readFrom values (total (done.map (·.columns))) plan =
      (mappers.zipIdx done.length).mapM fun (m, place) =>
        m.read values (Mapper.start (done ++ mappers) place) := by
  induction planned generalizing done with
  | nil => rfl
  | @cons field mapper plan mappers one _ ih =>
      obtain ⟨read, width⟩ := one
      have later := ih (done ++ [mapper])
      simp only [List.map_append, List.map_cons, List.map_nil, total_append, total_cons,
        total_nil, Nat.add_zero, List.length_append, List.length_singleton, List.append_assoc,
        List.singleton_append] at later
      unfold readFrom
      rw [read, width, later, List.zipIdx_cons, List.mapM_cons]
      dsimp only
      rw [start_length]
      simp only [pure_bind, List.singleton_append]

theorem starts_cover (done mappers : List Mapper) :
    ((mappers.zipIdx done.length).flatMap fun (m, place) =>
      List.range' (Mapper.start (done ++ mappers) place) m.columns) =
      List.range' (total (done.map (·.columns))) (total (mappers.map (·.columns))) := by
  induction mappers generalizing done with
  | nil => simp
  | cons mapper mappers ih =>
      have later := ih (done ++ [mapper])
      simp only [List.map_append, List.map_cons, List.map_nil, total_append, total_cons,
        total_nil, Nat.add_zero, List.length_append, List.length_singleton, List.append_assoc,
        List.singleton_append] at later
      rw [List.zipIdx_cons, List.flatMap_cons, later]
      dsimp only
      rw [start_length, List.map_cons, total_cons,
        List.range'_append_1]

theorem divides {name : String} (planned : List.Forall₂ PlannedBy plan mappers) {count : Nat}
    (widths : total (mappers.map (·.columns)) = count) :
    Divides ⟨name, false, plan⟩ mappers count := by
  constructor
  · intro α row values
    have read := readFrom_eq planned [] values
    simp only [List.map_nil, total_nil, List.length_nil, List.nil_append] at read
    simp [fetch, read]
  · have covered := starts_cover [] mappers
    simp only [List.map_nil, total_nil, List.length_nil, List.nil_append, widths] at covered
    rw [covered, List.range_eq_range']

theorem plan_data {registry : Registry} {row : String} {fields : List TypedField}
    (reads : List.Forall₂ (TypedField.ReadBy registry) fields mappers) :
    ∃ plan, (fields.map fun f => (⟨f.name, f.type⟩ : RowField)).mapM
        (planField registry row false) = .ok plan ∧ List.Forall₂ PlannedBy plan mappers := by
  induction reads with
  | nil => exact ⟨[], rfl, .nil⟩
  | @cons field mapper fields mappers one _ ih =>
      obtain ⟨type, isValue, resolved⟩ := one
      obtain ⟨plan, made, planned⟩ := ih
      refine ⟨⟨field.name, mapper.columns, some mapper⟩ :: plan, ?_, .cons ⟨rfl, rfl⟩ planned⟩
      rw [List.map_cons, List.mapM_cons, made, isValue]
      simp only [planField, resolved]
      rfl

theorem plan_descriptions {registry : Registry} {row : String} {fields : List TypedField}
    (all : ∀ field ∈ fields, field.type = .descriptor) :
    ∃ plan, (fields.map fun f => (⟨f.name, f.type⟩ : RowField)).mapM
        (planField registry row true) = .ok plan ∧
      total (plan.map (·.columns)) = fields.length := by
  induction fields with
  | nil => exact ⟨[], rfl, rfl⟩
  | cons field fields ih =>
      obtain ⟨plan, made, width⟩ := ih fun f member => all f (.tail field member)
      refine ⟨⟨field.name, 1, none⟩ :: plan, ?_, ?_⟩
      · rw [List.map_cons, List.mapM_cons, made, all field (.head fields)]
        rfl
      · rw [List.map_cons, total_cons, width, List.length_cons, Nat.add_comm]

theorem widths_planned (planned : List.Forall₂ PlannedBy plan mappers) :
    plan.map (·.columns) = mappers.map (·.columns) := by
  induction planned with
  | nil => rfl
  | cons one _ ih => rw [List.map_cons, List.map_cons, one.2, ih]

theorem checkColumns_eq_ok {factory : RowFactory} {count : Nat} :
    factory.checkColumns count = .ok () ↔ factory.columnCount = count := by
  unfold checkColumns
  split <;> simp_all

variable {registry : Registry} {row : TypedRow} {count : Nat} {isMeta : Bool}

theorem build_eq_ok {plan : List FieldPlan} (unit : String) (id : Nat) (some_ : row.fields ≠ [])
    (made : (row.fields.map fun f => (⟨f.name, f.type⟩ : RowField)).mapM
      (planField registry (unit ++ "::" ++ row.name) isMeta) = .ok plan) :
    build registry (row.rowType unit id) isMeta = .ok ⟨unit ++ "::" ++ row.name, isMeta, plan⟩ := by
  have some_ : ((row.rowType unit id).fields).isEmpty = false := by
    simpa [TypedRow.rowType] using some_
  unfold build
  rw [some_]
  simp only [TypedRow.rowType, Bool.false_eq_true, if_false, made]
  rfl

end RowFactory

theorem TypedRow.Fits.fields_ne_nil {registry : Registry} {row : TypedRow} {count : Nat}
    {isMeta : Bool} (fits : row.Fits registry count isMeta) (some_ : count ≠ 0) :
    row.fields ≠ [] := by
  intro none
  cases fits with
  | descriptions all length =>
      rw [none] at length
      exact some_ length.symm
  | data reads widths =>
      rw [none] at reads
      cases reads
      exact some_ widths.symm

/-! Values of built-in types. -/

/-- A missing value, or one of a type. -/
def Value.Is (type : ValueType) (v : Value) : Prop :=
  v = .null ∨ v.type? = some type

theorem Stored.readText_is {read : String → Except String Value} {type : ValueType}
    (made : ∀ (s : String) (v : Value), read s = .ok v → v.type? = some type)
    {text : Except Utf8.Malformed String} {v : Value} (found : readText read text = .ok v) :
    v.Is type := by
  unfold readText at found
  split at found
  · cases found
  · split at found
    · rename_i s _ v result
      cases found
      exact .inr (made s v result)
    · cases found

theorem Value.parseDate_type {s : String} {v : Value} (read : parseDate s = .ok v) :
    v.type? = some .date := by
  unfold parseDate at read
  split at read
  · cases read
    rfl
  · cases read

theorem Value.parseTimestamp_type {s : String} {v : Value} (read : parseTimestamp s = .ok v) :
    v.type? = some .timestamp := by
  unfold parseTimestamp at read
  dsimp only at read
  split at read
  · cases read
    rfl
  · cases read

/-- What is read as a type is of that type, or missing. -/
theorem Stored.readAs_is {raw : Stored} {type : ValueType} {v : Value}
    (read : raw.readAs type = .ok v) : v.Is type := by
  unfold readAs at read
  dsimp only at read
  split at read
  case h_1 =>
    cases read
    exact .inl rfl
  case h_3 | h_4 | h_13 =>
    split at read
    · cases read
      exact .inr rfl
    · cases read
  case h_14 =>
    split at read
    · exact readText_is (fun s v same => by cases same; rfl) read
    · exact readText_is (fun s v => Value.parseDate_type) read
    · exact readText_is (fun s v => Value.parseTimestamp_type) read
    · split at read <;> cases read
  all_goals
    cases read
    exact .inr rfl

theorem Value.Is.convert_eq_ok {v : Value} {type : ValueType} (is : v.Is type)
    (builtin : type ∈ ValueType.builtins) : ∃ w, v.convert type.target = .ok w := by
  rcases is with rfl | is
  · cases type <;> exact ⟨_, rfl⟩
  · cases v <;> cases is <;> exact ⟨_, rfl⟩

theorem Value.convert_optional {v : Value} {target : TargetType}
    (converts : ∃ w, v.convert target = .ok w) : ∃ w, v.convert (.optional target) = .ok w := by
  cases v with
  | null => exact ⟨_, rfl⟩
  | _ => exact converts

/-- A field takes every value of its built-in type, and a missing one. -/
theorem TypedField.convert_eq_ok {field : TypedField} {type : ValueType} {v : Value}
    (isValue : field.type = .value type) (builtin : type ∈ ValueType.builtins)
    (is : v.Is type) : ∃ w, v.convert field.target = .ok w := by
  have converts := is.convert_eq_ok builtin
  unfold target
  rw [isValue]
  dsimp only
  split
  · exact Value.convert_optional converts
  · exact converts

theorem Taking.mapM_eq_ok {fields : List TypedField} {values : List Value}
    (converts : List.Forall₂ (fun f v => ∃ w, v.convert f.target = .ok w) fields values) :
    ∃ taken, (fields.mapM fun f => take f.name f.target).run values = .ok (taken, []) := by
  induction converts with
  | nil => exact ⟨[], rfl⟩
  | @cons field v fields values one _ ih =>
      obtain ⟨w, one⟩ := one
      obtain ⟨taken, rest⟩ := ih
      refine ⟨w :: taken, ?_⟩
      have first : (take field.name field.target).run (v :: values) = .ok (w, values) := by
        unfold take
        rw [StateT.run_bind]
        simp only [StateT.run_get, pure_bind]
        rw [StateT.run_bind, StateT.run_set, pure_bind, one]
        rfl
      rw [List.mapM_cons, StateT.run_bind, first]
      change ((fields.mapM fun f => take f.name f.target) >>= fun more =>
        pure (w :: more) : Taking (List Value)).run values = _
      rw [StateT.run_bind, rest]
      rfl

theorem mapM_eq_error {f : α → Except ε β} {as : List α} {e : ε} (failed : as.mapM f = .error e) :
    ∃ a ∈ as, f a = .error e := by
  induction as with
  | nil => cases failed
  | cons a as ih =>
      rw [List.mapM_cons] at failed
      cases one : f a with
      | error e' =>
          simp only [one, bind, Except.bind, Except.error.injEq] at failed
          exact ⟨a, .head as, failed ▸ one⟩
      | ok b =>
          cases rest : as.mapM f with
          | error e' =>
              simp only [one, rest, bind, Except.bind, Except.error.injEq] at failed
              obtain ⟨x, member, same⟩ := ih (failed ▸ rest)
              exact ⟨x, .tail a member, same⟩
          | ok bs => simp [one, rest, bind, Except.bind, pure, Except.pure] at failed

theorem Mapper.builtin_is {type : ValueType} {row : List Stored} {start : Nat} {v : Value}
    (read : (Mapper.builtin type).read row start = .ok v) : v.Is type := by
  simp only [builtin] at read
  cases raw : columnOf row start with
  | error e => simp [raw, bind, Except.bind] at read
  | ok raw' =>
      simp only [raw, bind, Except.bind] at read
      cases result : raw'.readAs type with
      | error e => simp [result, Except.mapError] at read
      | ok w =>
          simp only [result, Except.mapError, Except.ok.injEq] at read
          exact read ▸ Stored.readAs_is result

theorem Registry.HasBuiltins.resolve {registry : Registry} (builtins : registry.HasBuiltins)
    {type : ValueType} (builtin : type ∈ ValueType.builtins) :
    registry.resolve type = .ok (.builtin type) := by
  simp only [Registry.resolve, builtins type builtin]

/-- The values that mappers have read are taken by fields of built-in types. -/
theorem RowFactory.converts {registry : Registry} (builtins : registry.HasBuiltins)
    {fields : List TypedField} {mappers : List Mapper}
    (reads : List.Forall₂ (TypedField.ReadBy registry) fields mappers)
    (types : ∀ field ∈ fields, ∀ type, field.type = .value type → type ∈ ValueType.builtins)
    {row : List Stored} {values : List Value}
    (read : List.Forall₂ (fun m v => ∃ start, m.read row start = .ok v) mappers values) :
    List.Forall₂ (fun f v => ∃ w, v.convert f.target = .ok w) fields values := by
  induction reads generalizing values with
  | nil =>
      cases read
      exact .nil
  | @cons field mapper fields mappers one _ ih =>
      cases read with
      | @cons _ v _ values here rest =>
          obtain ⟨type, isValue, resolved⟩ := one
          obtain ⟨start, here⟩ := here
          have builtin := types field (.head fields) type isValue
          rw [builtins.resolve builtin] at resolved
          cases resolved
          refine .cons (TypedField.convert_eq_ok isValue builtin (Mapper.builtin_is here)) ?_
          exact ih (fun f member => types f (.tail field member)) rest

/-- Rows of data are fetched by mappers of their fields, which divide the columns; where all types
are built in, nothing fails but reading. -/
structure RowFactory.Fetches (factory : RowFactory) (registry : Registry) (row : TypedRow)
    (type : RowType (List Value)) (mappers : List Mapper) (count : Nat) : Prop where
  reads : List.Forall₂ (TypedField.ReadBy registry) row.fields mappers
  divides : factory.Divides mappers count
  fails : row.IsBuiltin → ∀ values e, factory.fetch type values = .error e →
    ∃ (place : Nat) (mapper : Mapper), mappers[place]? = some mapper ∧
      mapper.read values (Mapper.start mappers place) = .error e

theorem RowFactory.Divides.fetches {factory : RowFactory} {registry : Registry} {row : TypedRow}
    {mappers : List Mapper} {count : Nat} (divides : factory.Divides mappers count)
    (builtins : registry.HasBuiltins)
    (reads : List.Forall₂ (TypedField.ReadBy registry) row.fields mappers) (unit : String)
    (id : Nat) : factory.Fetches registry row (row.rowType unit id) mappers count := by
  refine ⟨reads, divides, ?_⟩
  intro types values e failed
  rw [divides.fetch] at failed
  cases read : mappers.zipIdx.mapM fun (m, place) =>
      m.read values (Mapper.start mappers place) with
  | error e' =>
      rw [read] at failed
      cases failed
      obtain ⟨⟨mapper, place⟩, member, failed⟩ := mapM_eq_error read
      exact ⟨place, mapper, List.mem_zipIdx_iff_getElem?.1 member, failed⟩
  | ok made =>
      have each : List.Forall₂ (fun m v => ∃ start, m.read values start = .ok v) mappers made := by
        rw [← List.zipIdx_map_fst 0 mappers, List.forall₂_map_left_iff]
        apply (mapM_eq_ok_iff.1 read).imp
        intro pair v here
        exact ⟨_, here⟩
      obtain ⟨taken, constructed⟩ := Taking.mapM_eq_ok (converts builtins reads types each)
      rw [read] at failed
      simp only [TypedRow.rowType, construct, constructed, bind, Except.bind, pure, Except.pure,
        Except.mapError] at failed
      cases failed

/-- The factory of a row type that fits. -/
theorem TypedRow.Fits.build {registry : Registry} {row : TypedRow} {count : Nat} {isMeta : Bool}
    (fits : row.Fits registry count isMeta) (builtins : registry.HasBuiltins) (some_ : count ≠ 0)
    (unit : String) (id : Nat) :
    ∃ factory, RowFactory.build registry (row.rowType unit id) isMeta = .ok factory ∧
      factory.checkColumns count = .ok () ∧
      (isMeta = false →
        ∃ mappers, factory.Fetches registry row (row.rowType unit id) mappers count) := by
  have fields := fits.fields_ne_nil some_
  cases fits with
  | descriptions all length =>
      obtain ⟨plan, made, width⟩ := RowFactory.plan_descriptions all
      refine ⟨_, RowFactory.build_eq_ok unit id fields made, ?_, nofun⟩
      exact RowFactory.checkColumns_eq_ok.2 (width.trans length)
  | data reads widths =>
      obtain ⟨plan, made, planned⟩ := RowFactory.plan_data reads
      refine ⟨_, RowFactory.build_eq_ok unit id fields made, ?_, ?_⟩
      · apply RowFactory.checkColumns_eq_ok.2
        rw [← widths, ← RowFactory.widths_planned planned]
        rfl
      · intro _
        exact ⟨_, (RowFactory.divides planned widths).fetches builtins reads unit id⟩

end SqlUnits
