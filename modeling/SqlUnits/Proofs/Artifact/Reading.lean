import SqlUnits.Artifact.Json
import SqlUnits.Proofs.Json.Record
import SqlUnits.Proofs.Value.Named
/-!
A typed artifact is read back from its text: types by their names, members that were left out as
what they default to.
-/

namespace SqlUnits

open JsonTree (Spells)

/-- A statement whose value type has a name, and whose line a machine word can hold. -/
structure TypedStatement.Storable (s : TypedStatement) : Prop where
  valueType : ∀ type ∈ s.valueType, type.IsNamed
  line : s.line < twoPow 64

structure TypedMethod.Storable (m : TypedMethod) : Prop where
  params : ∀ p ∈ m.params, p.type.IsNamed
  statements : ∀ s ∈ m.statements, s.Storable

/-- A unit whose types have names, and whose lines machine words can hold. -/
structure TypedUnit.Storable (u : TypedUnit) : Prop where
  rows : ∀ r ∈ u.rows, ∀ f ∈ r.fields, f.type.IsNamed
  methods : ∀ m ∈ u.methods, m.Storable

variable {t : JsonTree}

theorem JsonTree.Spells.listMap {α : Type} {as : List α} {write : α → Json}
    {read : JsonTree → JsonRead α} (spells : t.Spells (.arr (as.map write)))
    (reads : ∀ a ∈ as, ∀ t : JsonTree, t.Spells (write a) → read t = .ok a) :
    t.list read = .ok as := by
  refine spells.list ?_
  rw [List.forall₂_map_left_iff]
  exact List.forall₂_same.2 reads

theorem ValueType.ofTree_toJson {type : ValueType} (named : type.IsNamed)
    (spells : t.Spells type.toJson) : ofTree t = .ok type := by
  unfold ofTree
  rw [spells.string]
  exact congrArg Except.ok (ofName_name named)

theorem Nullability.ofTree_name (n : Nullability) (spells : t.Spells (.str n.name)) :
    ofTree t = .ok n :=
  spells.choice (by cases n <;> rfl)

theorem TypedParam.ofTree_toJson {p : TypedParam} (named : p.type.IsNamed)
    (spells : t.Spells p.toJson) : ofTree t = .ok p := by
  refine spells.record (by simp) fun m holds => ?_
  have name : m.required "name" JsonTree.string = .ok p.name :=
    holds.required rfl fun t spells => spells.string
  have type : m.required "ty" ValueType.ofTree = .ok p.type :=
    holds.required rfl fun t spells => ValueType.ofTree_toJson named spells
  rw [name, type]
  rfl

theorem TypedStatement.ofTree_toJson {s : TypedStatement} (storable : s.Storable)
    (spells : t.Spells s.toJson) : ofTree t = .ok s := by
  have names : ([("convention", some (.str s.convention)), ("line", some (.nat s.line)),
      ("sql", s.sql.map .str), ("args", some (.arr (s.args.map .str))), ("row", s.row.map .str),
      ("value_type", s.valueType.map ValueType.toJson), ("object", s.object.map .str)].map
        fun m : String × Option Json => m.1).Nodup := by simp
  refine spells.record (Json.objSome_names names) fun m holds => ?_
  have found (name : String) := Json.lookup_objSome names name
  have text {o : Option String} {name : String} (there : _ = o.map Json.str) :
      m.optional name JsonTree.string = .ok o :=
    holds.optional ((found name).trans there) (fun _ _ => nofun) fun _ _ t spells => spells.string
  have convention : m.required "convention" JsonTree.string = .ok s.convention :=
    holds.required (found _) fun t spells => spells.string
  have line : m.required "line" JsonTree.count = .ok s.line :=
    holds.required (found _) fun t spells => spells.count storable.line
  have sql : m.optional "sql" JsonTree.string = .ok s.sql := text rfl
  have args : m.orElse "args" (JsonTree.list JsonTree.string) [] = .ok s.args :=
    holds.orElse (found _) fun t spells => spells.listMap fun _ _ t spells => spells.string
  have row : m.optional "row" JsonTree.string = .ok s.row := text rfl
  have valueType : m.optional "value_type" ValueType.ofTree = .ok s.valueType :=
    holds.optional (found _) (fun _ _ => nofun) fun type known t spells =>
      ValueType.ofTree_toJson (storable.valueType type known) spells
  have object : m.optional "object" JsonTree.string = .ok s.object := text rfl
  rw [convention, line, sql, args, row, valueType, object]
  rfl

theorem TypedMethod.ofTree_toJson {method : TypedMethod} (storable : method.Storable)
    (spells : t.Spells method.toJson) : ofTree t = .ok method := by
  refine spells.record (by simp) fun m holds => ?_
  have name : m.required "name" JsonTree.string = .ok method.name :=
    holds.required rfl fun t spells => spells.string
  have params : m.required "params" (JsonTree.list TypedParam.ofTree) = .ok method.params :=
    holds.required rfl fun t spells => spells.listMap fun p member t spells =>
      TypedParam.ofTree_toJson (storable.params p member) spells
  have statements : m.required "statements" (JsonTree.list TypedStatement.ofTree) =
      .ok method.statements :=
    holds.required rfl fun t spells => spells.listMap fun s member t spells =>
      TypedStatement.ofTree_toJson (storable.statements s member) spells
  rw [name, params, statements]
  rfl

theorem TypedField.ofTree_toJson {f : TypedField} (named : f.type.IsNamed)
    (spells : t.Spells f.toJson) : ofTree t = .ok f := by
  refine spells.record (by simp) fun m holds => ?_
  have name : m.required "name" JsonTree.string = .ok f.name :=
    holds.required rfl fun t spells => spells.string
  have type : m.required "ty" (FieldType.ofName <$> ·.string) = .ok f.type := by
    refine holds.required rfl fun t spells => ?_
    rw [spells.string]
    exact congrArg Except.ok (FieldType.ofName_name named)
  have nullable : m.orElse "nullable" Nullability.ofTree .unknown = .ok f.nullable :=
    holds.orElse rfl fun t spells => Nullability.ofTree_name f.nullable spells
  rw [name, type, nullable]
  rfl

theorem TypedRow.ofTree_toJson {r : TypedRow} (named : ∀ f ∈ r.fields, f.type.IsNamed)
    (spells : t.Spells r.toJson) : ofTree t = .ok r := by
  refine spells.record (by simp) fun m holds => ?_
  have name : m.required "name" JsonTree.string = .ok r.name :=
    holds.required rfl fun t spells => spells.string
  have isMeta : m.required "meta" JsonTree.bool = .ok r.isMeta :=
    holds.required rfl fun t spells => spells.bool
  have declared : m.required "declared" JsonTree.bool = .ok r.declared :=
    holds.required rfl fun t spells => spells.bool
  have fields : m.required "fields" (JsonTree.list TypedField.ofTree) = .ok r.fields :=
    holds.required rfl fun t spells => spells.listMap fun f member t spells =>
      TypedField.ofTree_toJson (named f member) spells
  rw [name, isMeta, declared, fields]
  rfl

namespace TypedUnit

theorem ofTree_toJson {u : TypedUnit} (storable : u.Storable) (spells : t.Spells u.toJson) :
    ofTree t = .ok u := by
  refine spells.record (by simp) fun m holds => ?_
  have unit : m.required "unit" JsonTree.string = .ok u.unit :=
    holds.required rfl fun t spells => spells.string
  have source : m.required "source" JsonTree.string = .ok u.source :=
    holds.required rfl fun t spells => spells.string
  have rows : m.required "rows" (JsonTree.list TypedRow.ofTree) = .ok u.rows :=
    holds.required rfl fun t spells => spells.listMap fun r member t spells =>
      TypedRow.ofTree_toJson (storable.rows r member) spells
  have methods : m.required "methods" (JsonTree.list TypedMethod.ofTree) = .ok u.methods :=
    holds.required rfl fun t spells => spells.listMap fun method member t spells =>
      TypedMethod.ofTree_toJson (storable.methods method member) spells
  rw [unit, source, rows, methods]
  rfl

end TypedUnit

/-! How deep artifacts are. -/

namespace Json

theorem readable_arr {α : Type} {n : Nat} {as : List α} {write : α → Json}
    (each : ∀ a, (write a).Readable n) : (Json.arr (as.map write)).Readable (n + 1) :=
  .arr fun _ member => by
    obtain ⟨a, _, rfl⟩ := List.mem_map.1 member
    exact each a

theorem readable_obj {n : Nat} {members : List (String × Json)}
    (each : members.Forall fun m => m.2.Readable n) : (Json.obj members).Readable (n + 1) :=
  .obj fun m member => List.forall_iff_forall_mem.1 each m member

end Json

theorem TypedStatement.toJson_readable (s : TypedStatement) : s.toJson.Readable 2 := by
  have text (o : Option String) : ∀ j ∈ o.map Json.str, j.Readable 1 := by
    intro j member
    obtain ⟨_, _, rfl⟩ := Option.map_eq_some_iff.1 member
    exact .plain rfl
  have type (o : Option ValueType) : ∀ j ∈ o.map ValueType.toJson, j.Readable 1 := by
    intro j member
    obtain ⟨_, _, rfl⟩ := Option.map_eq_some_iff.1 member
    exact .plain rfl
  refine .obj fun m member => ?_
  obtain ⟨⟨name, value?⟩, inside, made⟩ := List.mem_filterMap.1 member
  obtain ⟨j, known, rfl⟩ := Option.map_eq_some_iff.1 made
  simp only [List.mem_cons, List.not_mem_nil, or_false, Prod.mk.injEq] at inside
  rcases inside with ⟨_, rfl⟩ | ⟨_, rfl⟩ | ⟨_, rfl⟩ | ⟨_, rfl⟩ | ⟨_, rfl⟩ | ⟨_, rfl⟩ | ⟨_, rfl⟩
  · cases known
    exact .plain rfl
  · cases known
    exact .plain rfl
  · exact text _ j known
  · cases known
    exact Json.readable_arr fun _ => .plain rfl
  · exact text _ j known
  · exact type _ j known
  · exact text _ j known

namespace TypedUnit

theorem toJson_readable (u : TypedUnit) : u.toJson.Readable (Json.maxDepth - 1) := by
  have text (s : String) (n : Nat) : (Json.str s).Readable n := .plain rfl
  have param (p : TypedParam) : p.toJson.Readable 1 :=
    Json.readable_obj ⟨text _ _, text _ _⟩
  have method (m : TypedMethod) : m.toJson.Readable 4 :=
    Json.readable_obj ⟨text _ _, (Json.readable_arr param).mono (by decide),
      Json.readable_arr fun s => s.toJson_readable⟩
  have field (f : TypedField) : f.toJson.Readable 1 :=
    Json.readable_obj ⟨text _ _, text _ _, text _ _⟩
  have row (r : TypedRow) : r.toJson.Readable 3 :=
    Json.readable_obj ⟨text _ _, .plain rfl, .plain rfl, Json.readable_arr field⟩
  have whole : u.toJson.Readable 6 :=
    Json.readable_obj ⟨text _ _, text _ _, (Json.readable_arr row).mono (by decide),
      Json.readable_arr method⟩
  exact whole.mono (by decide)

/-- A unit is read back from the text that it is written as. -/
theorem read_toJson {u : TypedUnit} (storable : u.Storable) :
    JsonTree.read ofTree u.toJson.pretty = .ok u :=
  JsonTree.read_pretty u.toJson_readable fun _ spells => ofTree_toJson storable spells

end TypedUnit

end SqlUnits
