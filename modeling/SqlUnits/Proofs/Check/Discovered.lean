import SqlUnits.Check.Statement
import SqlUnits.Proofs.Artifact.Fields
import SqlUnits.Proofs.Shape.Covering
/-!
What is discovered is accepted when it is declared: the types of columns are built in, and the
fields that are made of a shape fit every observation that the shape covers.
-/

namespace SqlUnits

/-- Every built-in type has its own mapper. -/
def Registry.HasBuiltins (registry : Registry) : Prop :=
  ∀ type ∈ ValueType.builtins, registry.get? type = some (Mapper.builtin type)

theorem Registry.hasBuiltins : Registry.builtins.HasBuiltins := by
  intro type member
  cases type with
  | custom name => simp [ValueType.builtins] at member
  | _ => rfl

theorem typeOfDecl_mem {decl : String} {type : ValueType} (known : typeOfDecl decl = some type) :
    type ∈ ValueType.builtins := by
  unfold typeOfDecl at known
  dsimp only at known
  repeat' split at known
  all_goals cases known
  all_goals decide

theorem Stored.valueType?_mem {value : Stored} {type : ValueType}
    (known : value.valueType? = some type) : type ∈ ValueType.builtins := by
  cases value <;> cases known <;> decide

theorem Sample.valueType?_mem {sample : Sample} {type : ValueType}
    (known : sample.valueType? = some type) : type ∈ ValueType.builtins := by
  cases sample <;> cases known <;> decide

theorem describeColumn_mem {column : DeclaredColumn} {sample : Option Stored} {type : ValueType}
    (known : (describeColumn column sample).valueType = some type) :
    type ∈ ValueType.builtins := by
  have either : (column.declType.bind typeOfDecl).or (sample.bind Stored.valueType?) =
      some type := by
    rw [← known]
    unfold describeColumn
    cases column.declType.bind typeOfDecl <;> rfl
  rcases Option.or_eq_some_iff.1 either with declared | ⟨_, stored⟩
  · obtain ⟨_, _, declared⟩ := Option.bind_eq_some_iff.1 declared
    exact typeOfDecl_mem declared
  · obtain ⟨_, _, stored⟩ := Option.bind_eq_some_iff.1 stored
    exact Stored.valueType?_mem stored

theorem ColumnOrigin.mark_valueType (column : ColumnInfo) (origin : Option ColumnOrigin) :
    (mark column origin).valueType = column.valueType := by
  unfold mark
  split
  · split <;> rfl
  · rfl

theorem discoverNullability_mem {db : Database} {sql : String} {columns : List ColumnInfo}
    (known : ∀ c ∈ columns, ∀ t, c.valueType = some t → t ∈ ValueType.builtins) :
    ∀ c ∈ discoverNullability db sql columns, ∀ t, c.valueType = some t →
      t ∈ ValueType.builtins := by
  unfold discoverNullability
  split
  · exact known
  · dsimp only
    split
    · intro c member t type
      obtain ⟨⟨column, origin⟩, inside, rfl⟩ := List.mem_map.1 member
      rw [ColumnOrigin.mark_valueType] at type
      exact known column (List.of_mem_zip inside).1 t type
    · exact known

/-- The types that a database tells of columns are built in. -/
theorem Connection.describe_mem {c : Connection} {sql : String} {s : Statement}
    {values : List Stored} {columns : List ColumnInfo}
    (described : (c.describe sql s values).1 = .ok columns) :
    ∀ column ∈ columns, ∀ t, column.valueType = some t → t ∈ ValueType.builtins := by
  unfold describe at described
  dsimp only at described
  cases first : (c.run s values).rows.first?.outcome.1.mapError DriverError.failure with
  | error e => simp [first, bind, Except.bind] at described
  | ok row =>
      simp only [first, bind, Except.bind, pure, Except.pure, Except.ok.injEq] at described
      subst described
      refine discoverNullability_mem fun column member t type => ?_
      obtain ⟨⟨_, _⟩, _, rfl⟩ := List.mem_map.1 member
      exact describeColumn_mem type

/-- A bare row is refused while a column of it has no type. -/
theorem Validator.columnsTyped {v : Validator} {row : String} {isMeta : Bool}
    {columns : List ColumnInfo} (fits : v.checkFields row none isMeta columns = .ok ())
    (known : ∀ column ∈ columns, ∀ t, column.valueType = some t → t ∈ ValueType.builtins) :
    ColumnsTyped isMeta columns := by
  cases isMeta with
  | true => exact .inl rfl
  | false =>
      refine .inr fun column member => ?_
      simp only [checkFields, Bool.false_eq_true, if_false] at fits
      split at fits
      · cases fits
      · rename_i typed
        have some := List.find?_eq_none.1 typed column member
        obtain ⟨t, type⟩ := Option.ne_none_iff_exists'.1 (by simpa using some)
        exact ⟨t, known column member t type, type⟩

/-- A field of a built-in type takes a column whose type widens to its own. -/
def TypedField.Takes (column : ColumnInfo) (field : TypedField) : Prop :=
  ∃ t u, column.valueType = some t ∧ field.type = .value u ∧ u ∈ ValueType.builtins ∧
    t.widensTo u = true

theorem TypedField.takes {columns seen : List ColumnInfo} {fields : List TypedField}
    (below : List.Forall₂ ColumnInfo.Below seen columns)
    (describes : List.Forall₂ (Describes false) columns fields)
    (typed : ∀ column ∈ seen, ∃ t, column.valueType = some t)
    (known : ∀ column ∈ columns, ∀ t, column.valueType = some t → t ∈ ValueType.builtins) :
    List.Forall₂ Takes seen fields := by
  induction below generalizing fields with
  | nil =>
      cases describes
      exact .nil
  | @cons first column seen columns one _ ih =>
      cases describes with
      | @cons _ field _ fields describes rest =>
          obtain ⟨t, type⟩ := typed first (.head seen)
          obtain ⟨u, wide, widens⟩ := one t type
          have field : field.type = .value u := by
            obtain ⟨made, _⟩ := describes
            simpa [fieldType?, wide, eq_comm] using made
          refine .cons ⟨t, u, type, field, known column (.head columns) u wide, widens⟩ ?_
          exact ih rest (fun c member => typed c (.tail first member))
            fun c member => known c (.tail column member)

namespace DeclaredRow

variable {registry : Registry} {row : String} {line : Nat}

theorem slot_eq_ok (builtins : registry.HasBuiltins) {type : ValueType}
    (member : type ∈ ValueType.builtins) (name : String) :
    slot registry row ⟨name, .value type, line⟩ = .ok ⟨name, type, 1⟩ := by
  simp only [slot, Registry.resolve, builtins type member]
  rfl

theorem checkSlots_eq_ok (row : String) (line : Nat) (builtins : registry.HasBuiltins)
    {columns : List ColumnInfo} {fields : List TypedField}
    (takes : List.Forall₂ TypedField.Takes columns fields) :
    ∃ slots, (fields.map fun f => ⟨f.name, f.type, line⟩).mapM (slot registry row) = .ok slots ∧
      total (slots.map (·.width)) = columns.length ∧ checkSlots row slots columns = .ok () := by
  induction takes with
  | nil => exact ⟨[], rfl, rfl, rfl⟩
  | @cons column field columns fields takes rest ih =>
      obtain ⟨slots, read, width, checked⟩ := ih
      obtain ⟨t, u, known, type, member, widens⟩ := takes
      refine ⟨⟨field.name, u, 1⟩ :: slots, ?_, ?_, ?_⟩
      · rw [List.map_cons, List.mapM_cons, type, slot_eq_ok builtins member, read]
        rfl
      · simp [width, Nat.add_comm]
      · have one : checkSlot row ⟨field.name, u, 1⟩ column = .ok () := by
          simp [checkSlot, known, widens]
        unfold checkSlots
        simp only [one, List.drop_succ_cons, List.drop_zero, checked]
        split <;> rfl

/-- Fields that are discovered in a shape accept every observation that the shape covers. -/
theorem check_discovered (builtins : registry.HasBuiltins) {shape : RowShape} {isMeta : Bool}
    {columns : List ColumnInfo} {fields : List TypedField}
    (made : discoveredFields shape = some fields) (covers : shape.Covers isMeta columns)
    (typed : ColumnsTyped isMeta columns)
    (known : ∀ column ∈ shape.columns, ∀ t, column.valueType = some t → t ∈ ValueType.builtins) :
    check registry row (fields.map fun f => ⟨f.name, f.type, line⟩) isMeta columns = .ok () := by
  obtain ⟨mode, below⟩ := covers
  have describes := fieldsFrom_describes made
  rw [mode] at describes
  cases isMeta with
  | true =>
      have none : (fields.map fun f => (⟨f.name, f.type, line⟩ : FieldDecl)).find?
          (fun f => f.type != .descriptor) = none := by
        refine List.find?_eq_none.2 fun field member => ?_
        obtain ⟨field, inside, rfl⟩ := List.mem_map.1 member
        have descriptor := TypedField.Describes.isDescriptor describes field inside
        simp [eq_of_beq descriptor]
      have length := below.length_eq.trans describes.length_eq
      simp only [check, if_true, checkMeta, none, List.length_map, length]
  | false =>
      have types : ∀ column ∈ columns, ∃ t, column.valueType = some t := by
        intro column member
        rcases typed with isMeta | typed
        · cases isMeta
        · obtain ⟨t, _, type⟩ := typed column member
          exact ⟨t, type⟩
      obtain ⟨slots, read, width, checked⟩ := checkSlots_eq_ok row line builtins
        (TypedField.takes below describes types known)
      simp only [check, Bool.false_eq_true, if_false, read, bind, Except.bind, width, ne_eq,
        not_true, checked]

end DeclaredRow

/-- The types of all columns that are known are built in. -/
def ShapeRegistry.Builtin (shapes : ShapeRegistry) : Prop :=
  ∀ row shape, shapes.get? row = some shape →
    ∀ column ∈ shape.columns, ∀ t, column.valueType = some t → t ∈ ValueType.builtins

theorem ShapeRegistry.Builtin.record {shapes others : ShapeRegistry} (builtin : shapes.Builtin)
    {row : String} {isMeta : Bool} {columns : List ColumnInfo} {site : Location}
    {shape : RowShape} (recorded : shapes.record row isMeta columns site = .ok (shape, others))
    (known : ∀ column ∈ columns, ∀ t, column.valueType = some t → t ∈ ValueType.builtins) :
    others.Builtin := by
  obtain ⟨get, _, _, types⟩ := record_eq_ok recorded
  intro name other found column member t type
  rw [get] at found
  by_cases same : name = row
  · rw [if_pos same] at found
    cases found
    obtain ⟨before, from_, equal⟩ := types column member
    rw [equal] at type
    rcases from_ with here | ⟨first, there, inside⟩
    · exact known before here t type
    · exact builtin row first there before inside t type
  · rw [if_neg same] at found
    exact builtin name other found column member t type

/-- A value whose type is open has that of its only column. -/
theorem DeclaredValue.check_open {registry : Registry} {convention : Convention} {owner : String}
    {columns : List ColumnInfo} {type : ValueType}
    (found : check registry convention owner none columns = .ok type) :
    ∃ column, columns = [column] ∧ column.valueType = some type := by
  unfold check at found
  simp only [pure, Except.pure, bind, Except.bind, throw, throwThe, MonadExceptOf.throw] at found
  cases columns with
  | nil => simp at found
  | cons column rest =>
      cases rest with
      | cons second rest => simp at found
      | nil =>
          cases read : column.valueType with
          | none => simp [read] at found
          | some t => exact ⟨column, rfl, by simpa [read] using found⟩

/-- The type that a value was found to have is the one that it may be declared with. -/
theorem DeclaredValue.check_discovered {registry : Registry} (builtins : registry.HasBuiltins)
    {convention : Convention} {owner : String} {columns : List ColumnInfo} {type : ValueType}
    (found : check registry convention owner none columns = .ok type)
    (known : ∀ column ∈ columns, ∀ t, column.valueType = some t → t ∈ ValueType.builtins) :
    type ∈ ValueType.builtins ∧
      check registry convention owner (some type) columns = .ok type := by
  obtain ⟨column, rfl, read⟩ := check_open found
  have member := known column (.head []) type read
  refine ⟨member, ?_⟩
  simp [check, Registry.resolve, builtins type member, Mapper.builtin, read,
    type.widensTo_refl, bind, Except.bind, Except.mapError, pure, Except.pure]

end SqlUnits
