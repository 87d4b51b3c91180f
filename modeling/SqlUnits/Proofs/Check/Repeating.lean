import Mathlib.Data.List.Pairwise
import SqlUnits.Proofs.Check.Again
import SqlUnits.Proofs.Check.Gathering
/-!
The check of a whole unit, repeated on what it has found: every type and every field is there, no
edit is made, and everything else comes out as before.
-/

namespace SqlUnits

instance (shape : RowShape) : Decidable shape.IsWritten :=
  inferInstanceAs (Decidable (shape.columns ≠ [] ∧ (shape.isMeta = true ∨
    ∀ column ∈ shape.columns, ∃ type ∈ ValueType.builtins, column.valueType = some type)))

namespace Filling

/-- The types and shapes that a check has found: samples tell those of parameters, edits those of
values. -/
def found (unit : SourceUnit) (edits : EditList) (shapes : ShapeRegistry) : Filling where
  param p := (p.sample.bind Sample.valueType?).getD .int
  value span := (ValueType.builtins.find? fun type => ⟨span, type.name⟩ ∈ edits.edits).getD .int
  row r := (shapes.get? (unit.qualified r.name.name)).filter (·.IsWritten)
  param_builtin p := by
    cases supplied : p.sample.bind Sample.valueType? with
    | none => decide
    | some type =>
        obtain ⟨_, _, known⟩ := Option.bind_eq_some_iff.1 supplied
        exact Sample.valueType?_mem known
  value_builtin span := by
    cases first : ValueType.builtins.find? fun type => ⟨span, type.name⟩ ∈ edits.edits with
    | none => decide
    | some type => exact List.mem_of_find?_eq_some first
  row_isWritten r shape chosen := by
    simpa using (Option.filter_eq_some_iff.1 chosen).2

theorem found_foundIn (unit : SourceUnit) {edits : EditList} (shapes : ShapeRegistry)
    (compatible : edits.edits.Pairwise Edit.Compatible) :
    (found unit edits shapes).FoundIn unit edits shapes where
  param p type supplied := by
    show (p.sample.bind Sample.valueType?).getD .int = type
    rw [supplied, Option.getD_some]
  value span type member written := by
    have symm : Std.Symm Edit.Compatible := ⟨fun _ _ => Edit.Compatible.symm⟩
    have first : (ValueType.builtins.find? fun t => ⟨span, t.name⟩ ∈ edits.edits).isSome :=
      List.find?_isSome.2 ⟨type, member, by simpa using written⟩
    obtain ⟨other, first⟩ := Option.isSome_iff_exists.1 first
    have written' : (⟨span, other.name⟩ : Edit) ∈ edits.edits := by
      simpa using List.find?_some first
    have name : other.name = type.name := by
      by_contra differs
      have apart := compatible.forall written' written (by simpa using differs)
      exact apart.start_ne rfl
    have known := (ValueType.isWritten type member).known
    have known' := (ValueType.isWritten other (List.mem_of_find?_eq_some first)).known
    show (ValueType.builtins.find? fun t => ⟨span, t.name⟩ ∈ edits.edits).getD .int = type
    rw [first, Option.getD_some, ← known', ← known, name]
  row r shape chosen := (Option.filter_eq_some_iff.1 chosen).1

end Filling

theorem param_edit?_filled {f : Filling} {p p' : ParamDecl} (filled : p.Filled f p') :
    p'.edit? f = none := by
  unfold ParamDecl.edit?
  rw [filled.type]
  rfl

namespace Validator

variable {v : Validator} {R : Connection → Connection → Prop} {f : Filling}
  {unit unit' : SourceUnit} {m m' : MethodDecl} {s t : CheckState} {table : ParamTable}

/-- The parameters of a method have the types of their table. -/
def Typed (f : Filling) (table : ParamTable) (params : List ParamDecl) : Prop :=
  ∀ p ∈ params, table.get? p.name.name = some (p.type.getD (f.param p))

theorem runs_paramEdits {params : List ParamDecl} (typed : Typed f table params)
    {types : List TypedParam} (found : params.mapM (typedParam table) = .ok types)
    {edits next : EditList} :
    Runs ((params.zip types).foldlM (addParamEdit unit) edits) s next t ↔
      (params.filterMap (·.edit? f)).foldlM EditList.add edits = .ok next ∧ t = s := by
  induction params generalizing types edits s with
  | nil =>
      cases found
      exact (runs_pure (c := edits)).trans (by simp [pure, Except.pure, eq_comm])
  | cons p params ih =>
      obtain ⟨first, typed⟩ := List.forall_mem_cons.1 typed
      have one : typedParam table p = .ok ⟨p.name.name, p.type.getD (f.param p)⟩ := by
        simp [typedParam, ParamTable.typeOf, first, bind, Except.bind, pure, Except.pure]
      rw [List.mapM_cons, one] at found
      cases rest : params.mapM (typedParam table) with
      | error e => simp [rest, bind, Except.bind] at found
      | ok others =>
          simp only [rest, bind, Except.bind, pure, Except.pure, Except.ok.injEq] at found
          subst found
          rw [List.zip_cons_cons, List.foldlM_cons, runs_bind]
          simp only [runs_addParamEdit, ih typed rest]
          have edit : (if p.type.isSome then none else some (Edit.insertion p.insertionPoint
              (": " ++ (p.type.getD (f.param p)).name))) = p.edit? f := by
            unfold ParamDecl.edit?
            cases p.type <;> rfl
          have whole : (p :: params).filterMap (·.edit? f) =
              (p.edit? f).toList ++ params.filterMap (·.edit? f) := by
            cases made : p.edit? f <;> simp [made]
          rw [edit, whole, EditList.foldlM_append_eq_ok]
          constructor
          · rintro ⟨middle, _, ⟨added, rfl⟩, others, rfl⟩
            exact ⟨⟨middle, added, others⟩, rfl⟩
          · rintro ⟨⟨middle, added, others⟩, rfl⟩
            exact ⟨middle, t, ⟨added, rfl⟩, others, rfl⟩

theorem typedParams_filled (method : m.Filled f m') (table : ParamTable) :
    m'.params.mapM (typedParam table) = m.params.mapM (typedParam table) := by
  have names : m'.params.map (·.name.name) = m.params.map (·.name.name) :=
    map_eq_of_forall₂ (fun _ _ param => param.name) method.params
  have named (params : List ParamDecl) : params.mapM (typedParam table) =
      (params.map (·.name.name)).mapM fun name => (table.typeOf name).map (⟨name, ·⟩) := by
    rw [List.mapM_map]
    rfl
  rw [named, named, names]

theorem typed_filled {params params' : List ParamDecl}
    (filled : List.Forall₂ (ParamDecl.Filled f) params params') (typed : Typed f table params) :
    Typed f table params' ∧ params'.filterMap (·.edit? f) = [] := by
  induction filled with
  | nil => exact ⟨nofun, rfl⟩
  | @cons p p' params params' param _ ih =>
      obtain ⟨first, rest⟩ := List.forall_mem_cons.1 typed
      obtain ⟨rest', none⟩ := ih rest
      refine ⟨List.forall_mem_cons.2 ⟨?_, rest'⟩, ?_⟩
      · rw [param.name, param.type, Option.getD_some]
        exact first
      · rw [List.filterMap_cons, param_edit?_filled param]
        exact none

/-- Parameters that are filled in have their types, and there is no edit for them. -/
theorem runs_paramEdits_filled (method : m.Filled f m') (typed : Typed f table m.params)
    {types : List TypedParam} (found : m.params.mapM (typedParam table) = .ok types) :
    Runs ((m'.params.zip types).foldlM (addParamEdit unit') {}) s {} s := by
  obtain ⟨typed', none⟩ := typed_filled method.params typed
  refine (runs_paramEdits typed' ((typedParams_filled method table).trans found)).2 ⟨?_, rfl⟩
  rw [none]
  rfl

/-- A method as far as it is checked, and the same in the repetition: `u` is what there was before
it, and `past` are the statements that are done. -/
structure DraftAlike (R : Connection → Connection → Prop) (f : Filling) (u : ValidatedUnit)
    (past : List StatementDecl) (draft draft' : ValidatedUnit × List TypedStatement)
    (s s' : CheckState) : Prop where
  written : draft' = ({ draft.1 with edits := {} }, draft.2)
  params : draft.1.params = u.params
  edits : (past.filterMap (·.target.edit? f)).foldlM EditList.add u.edits = .ok draft.1.edits
  state : s.Alike R s'

/-- A unit as far as it is checked, and the same in the repetition. -/
structure UnitAlike (R : Connection → Connection → Prop) (f : Filling) (table : ParamTable)
    (past : List MethodDecl) (u u' : ValidatedUnit) (s s' : CheckState) : Prop where
  written : u' = { u with edits := {} }
  params : u.params = table
  edits : (past.flatMap (·.edits f)).foldlM EditList.add {} = .ok u.edits
  state : s.Alike R s'

variable {edits : EditList} {shapes : ShapeRegistry} {u d d' : ValidatedUnit} {s' : CheckState}

theorem validateStatement_again (again : Repetition v R f unit unit' edits shapes)
    (method : m.Filled f m') {statement statement' : StatementDecl}
    (same : statement.Filled f statement') (readsValue : Scanner.ReadsValue statement)
    {past : List StatementDecl} {draft draft' last : ValidatedUnit × List TypedStatement}
    (alike : DraftAlike R f u past draft draft' s s')
    (runs : Runs (v.validateStatement unit m draft statement) s last t)
    (within : Within edits shapes last.1.edits t) :
    ∃ last' t', Runs (v.validateStatement unit' m' draft' statement') s' last' t' ∧
      DraftAlike R f u (past ++ [statement]) last last' t t' := by
  obtain ⟨rfl, params, gathered, state⟩ := alike
  obtain ⟨checked, next, checks, added, rfl⟩ := runs_validateStatement.1 runs
  have written (edit : Edit) (made : checked.edit = some edit) : edit ∈ edits.edits := by
    rw [made] at added
    cases one : draft.1.edits.add edit with
    | error e => simp [one, bind, Except.bind] at added
    | ok list =>
        simp only [Option.toList_some, List.foldlM_cons, one, List.foldlM_nil] at added
        cases added
        obtain ⟨perm, _⟩ := EditList.add_perm one
        exact within.edits.gathered.1 edit (perm.mem_iff.2 (.head _))
  obtain ⟨edit, t', checks', state'⟩ :=
    statement_again again method same readsValue state checks written within.shapes.below
  refine ⟨_, t', runs_validateStatement.2 ⟨_, {}, checks', rfl, rfl⟩, rfl, params, ?_, state'⟩
  have last : [statement].filterMap (·.target.edit? f) = checked.edit.toList := by
    rw [edit]
    cases made : statement.target.edit? f <;> simp [made]
  rw [List.filterMap_append, last]
  exact EditList.foldlM_append_eq_ok.2 ⟨_, gathered, added⟩

theorem statements_again (again : Repetition v R f unit unit' edits shapes)
    (method : m.Filled f m') (readsValue : ∀ s ∈ m.statements, Scanner.ReadsValue s)
    (state : s.Alike R s') {draft : ValidatedUnit × List TypedStatement}
    (runs : Runs (m.statements.foldlM (v.validateStatement unit m) (u, [])) s draft t)
    (within : Within edits shapes draft.1.edits t) :
    ∃ t', Runs (m'.statements.foldlM (v.validateStatement unit' m') ({ u with edits := {} }, []))
        s' ({ draft.1 with edits := {} }, draft.2) t' ∧
      draft.1.params = u.params ∧
      (m.statements.filterMap (·.target.edit? f)).foldlM EditList.add u.edits =
        .ok draft.1.edits ∧
      t.Alike R t' := by
  have start : DraftAlike R f u [] (u, []) ({ u with edits := {} }, []) s s' :=
    ⟨rfl, rfl, rfl, state⟩
  obtain ⟨_, t', runs', rfl, params, gathered, state'⟩ := runs_foldlM (DraftAlike R f u)
    (fun draft => Within edits shapes draft.1.edits) (fun _ _ _ _ _ => statement_within)
    ((List.forall₂_and_left _ _).2 ⟨readsValue, method.statements⟩)
    (fun _ _ _ _ _ _ _ _ _ pair => validateStatement_again again method pair.2 pair.1)
    start runs within
  exact ⟨t', runs', params, gathered, state'⟩

theorem validateMethod_again (again : Repetition v R f unit unit' edits shapes)
    (method : m.Filled f m') (readsValue : ∀ s ∈ m.statements, Scanner.ReadsValue s)
    (typed : Typed f table m.params) {past : List MethodDecl} {u' : ValidatedUnit}
    (alike : UnitAlike R f table past u u' s s')
    (runs : Runs (v.validateMethod unit u m) s d t) (within : Within edits shapes d.edits t) :
    ∃ d' t', Runs (v.validateMethod unit' u' m') s' d' t' ∧
      UnitAlike R f table (past ++ [m]) d d' t t' := by
  obtain ⟨rfl, params, gathered, state⟩ := alike
  obtain ⟨w, statements, types, next, middle, checks, found, added, rfl⟩ :=
    runs_validateMethod.1 runs
  have inside : Within edits shapes w.edits middle :=
    bounded_of_runs_foldlM (Within edits shapes) (fun _ _ _ _ _ => paramEdit_within) added within
  obtain ⟨t', checks', same, written, state'⟩ :=
    statements_again again method readsValue state checks inside
  rw [same, params] at found
  obtain ⟨last, rfl⟩ := (runs_paramEdits typed found).1 added
  refine ⟨{ w with edits := {}, methods := w.methods ++ [⟨m.name.name, types, statements⟩] }, t',
    runs_validateMethod.2 ⟨_, statements, types, {}, t', checks', ?_,
      runs_paramEdits_filled method typed found, ?_⟩, ?_⟩
  · rw [same, params, typedParams_filled method]
    exact found
  · rw [method.name]
  · refine ⟨rfl, same.trans params, ?_, state'⟩
    rw [List.flatMap_append, List.flatMap_singleton]
    refine EditList.foldlM_append_eq_ok.2 ⟨_, gathered, ?_⟩
    exact EditList.foldlM_append_eq_ok.2 ⟨_, written, last⟩

/-- Methods that pass pass again with their types, without an edit; the edits that there were are
those for the types that were open. -/
theorem methods_again (again : Repetition v R f unit unit' edits shapes)
    (readsValue : ∀ m ∈ unit.methods, ∀ s ∈ m.statements, Scanner.ReadsValue s)
    (typed : ∀ m ∈ unit.methods, Typed f table m.params) (state : s.Alike R s')
    (runs : Runs (v.validateMethods unit table) s d t) (within : Within edits shapes d.edits t) :
    (unit.methods.flatMap (·.edits f)).foldlM EditList.add {} = .ok d.edits ∧
      ∃ t', Runs (v.validateMethods unit' table) s' { d with edits := {} } t' ∧ t.Alike R t' := by
  obtain ⟨u, checks, rfl⟩ := runs_validateMethods.1 runs
  have start : UnitAlike R f table [] { unit := unit.name.name, path := unit.path, params := table }
      { unit := unit'.name.name, path := unit'.path, params := table } s s' :=
    ⟨by rw [again.filled.name, again.filled.path], rfl, rfl, state⟩
  have related : List.Forall₂ (fun m m' => ((∀ s ∈ m.statements, Scanner.ReadsValue s) ∧
      Typed f table m.params) ∧ m.Filled f m') unit.methods unit'.methods :=
    (List.forall₂_and_left _ _).2
      ⟨fun m member => ⟨readsValue m member, typed m member⟩, again.filled.methods⟩
  obtain ⟨_, t', checks', rfl, _, gathered, state'⟩ := runs_foldlM (UnitAlike R f table)
    (fun u => Within edits shapes u.edits) (fun _ _ _ _ _ => method_within)
    related (fun _ _ _ _ _ _ _ _ _ pair => validateMethod_again again pair.2 pair.1.1 pair.1.2)
    start checks within
  refine ⟨gathered, t', runs_validateMethods.2 ⟨_, checks', ?_⟩, state'⟩
  rw [warnings_filled again.filled]

variable {source : ConnectionSource} {run last : RunRecord}

/-- A unit that passed passes again on a source that repeats itself, once it is filled in with what
was found; there are no edits then, and the shapes are the same. -/
theorem validate_again (builtins : v.registry.HasBuiltins) (repeats : v.checker.Repeats R)
    (readsValue : ∀ m ∈ unit.methods, ∀ s ∈ m.statements, Scanner.ReadsValue s)
    (passed : v.validate source unit run = (.ok u, last)) (builtin : run.shapes.Builtin)
    {run' : RunRecord} (shapes : run'.shapes = run.shapes)
    (opens : ∀ c, (source.connect (run.stored.getD {})).1 = .ok c →
      ∃ c', (source.connect (run'.stored.getD {})).1 = .ok c' ∧ R c c') :
    last.shapes.Builtin ∧ u.edits.edits.Pairwise Edit.Compatible ∧
      ∀ f unit', unit.Filled f unit' → f.FoundIn unit u.edits last.shapes →
        (unit.methods.flatMap (·.edits f)).foldlM EditList.add {} = .ok u.edits ∧
          ∃ last', v.validate source unit' run' = (.ok { u with edits := {} }, last') ∧
            last'.shapes = last.shapes := by
  obtain ⟨table, c, stored, t, inferred, connected, checks, rfl⟩ := validate_eq_ok.1 passed
  have within : Within u.edits t.shapes u.edits t := ⟨.refl _, .refl _⟩
  obtain ⟨gathers, grows⟩ := unit_within checks within
  refine ⟨grows.builtin builtin, gathers.gathered.2 .nil, fun f unit' filled found => ?_⟩
  obtain ⟨inferred', types⟩ := Inference.ofUnit_filled filled found.param inferred
  obtain ⟨c', connected', related⟩ := opens c (by rw [connected])
  have again : Repetition v R f unit unit' u.edits t.shapes :=
    ⟨builtins, repeats, filled, found, grows.builtin builtin⟩
  have state : CheckState.Alike R { connection := c, shapes := run.shapes, checks := run.checks }
      { connection := c', shapes := run'.shapes, checks := run'.checks } :=
    ⟨related, shapes⟩
  obtain ⟨gathered, t', checks', alike⟩ := methods_again again readsValue types state checks within
  refine ⟨gathered, _, validate_eq_ok.2 ⟨table, c', _, t', inferred',
    Prod.ext connected' rfl, checks', rfl⟩, alike.shapes⟩

end Validator

end SqlUnits
