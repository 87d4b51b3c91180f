import SqlUnits.Proofs.Check.Repeating
import SqlUnits.Proofs.Check.Trace
import SqlUnits.Proofs.Unit.Rewriting
/-!
The edits that the check of a unit makes: it fills in the types that were open with those that it
has found, one edit for each.
-/

namespace SqlUnits.Validator

variable {v : Validator} {params table : ParamTable} {site : Site} {s t : CheckState}
  {checked : Checked} {f : Filling} {unit : SourceUnit} {method : MethodDecl}
  {u w : ValidatedUnit} {edits : EditList} {shapes last : ShapeRegistry}

theorem valueChecked_edit {typed : TypedStatement} {declared : Option ValueType} {span : Span}
    {columns : List ColumnInfo}
    (known : ∀ column ∈ columns, ∀ type, column.valueType = some type → type ∈ ValueType.builtins)
    (passed : v.valueChecked site typed declared span columns = .ok checked)
    (found : ∀ type ∈ ValueType.builtins, checked.edit = some ⟨span, type.name⟩ →
      f.value span = type) :
    checked.edit = (Target.value declared span).edit? f := by
  unfold valueChecked at passed
  cases fits : DeclaredValue.check v.registry site.statement.convention site.owner declared
      columns with
  | error e => simp [fits, bind, Except.bind] at passed
  | ok type =>
      simp only [fits, bind, Except.bind, pure, Except.pure, Except.ok.injEq] at passed
      subst passed
      cases declared with
      | some declared => rfl
      | none =>
          obtain ⟨column, rfl, read⟩ := DeclaredValue.check_open fits
          have member := known column (.head []) type read
          have same : f.value span = type := found type member rfl
          rw [Target.edit?, same]
          rfl

/-- A statement has an edit if the type of its value is open, and only then. -/
theorem statement_edit (readsValue : Scanner.ReadsValue site.statement)
    (runs : Runs (v.statement params site) s checked t)
    (found : ∀ span, ∀ type ∈ ValueType.builtins, checked.edit = some ⟨span, type.name⟩ →
      f.value span = type) :
    checked.edit = site.statement.target.edit? f := by
  have settled (single : site.statement.convention.isSingleColumn = false) :
      site.statement.target.edit? f = none := by
    cases target : site.statement.target with
    | none | row => rfl
    | value type span =>
        rw [readsValue type span target] at single
        cases single
  have object {typed : TypedStatement} {args : List String} {call : CheckCall}
      (runs : Runs (v.checkObject site typed args call) s checked t) : checked.edit = none := by
    obtain ⟨_, _, _, rfl⟩ := runs_checkObject.1 runs
    rfl
  by_cases proc : site.statement.convention = .proc
  · obtain ⟨_, _, _, _, _, _, rest⟩ := (runs_statement_proc proc).1 runs
    exact (object rest).trans (settled (by rw [proc]; rfl)).symm
  by_cases nextval : site.statement.convention = .nextval
  · obtain ⟨_, _, rest⟩ := (runs_statement_nextval nextval).1 runs
    exact (object rest).trans (settled (by rw [nextval]; rfl)).symm
  obtain ⟨_, _, _, _, _, _, rest⟩ := (runs_statement_sql proc nextval).1 runs
  split at rest
  · rename_i mutation
    obtain ⟨_, _, _, _, _, _, _, rfl⟩ := runs_checkMutation.1 rest
    refine (settled ?_).symm
    cases keyword : site.statement.convention <;> rw [keyword] at mutation <;>
      cases mutation <;> rfl
  · obtain ⟨columns, m, discovered, passed⟩ := runs_checkQuery.1 rest
    obtain ⟨_, _, _, described, _⟩ := runs_discover.1 discovered
    cases target : site.statement.target with
    | row row =>
        rw [target] at passed
        obtain ⟨_, _, _, _, _, rfl⟩ := runs_checkRow.1 passed
        rfl
    | value declared span =>
        rw [target] at passed
        exact valueChecked_edit (Connection.describe_mem described) passed.1 (found span)
    | none =>
        rw [target] at passed
        rw [passed.1]
        rfl

theorem statements_edits (foundIn : f.FoundIn unit edits shapes) {decls : List StatementDecl}
    (readsValue : ∀ s ∈ decls, Scanner.ReadsValue s) {done statements : List TypedStatement}
    (runs : Runs (decls.foldlM (v.validateStatement unit method) (u, done)) s (w, statements) t)
    (within : Within edits last w.edits t) :
    (decls.filterMap (·.target.edit? f)).foldlM EditList.add u.edits = .ok w.edits := by
  induction decls generalizing u done s with
  | nil =>
      obtain ⟨same, rfl⟩ := runs_pure.1 runs
      cases same
      rfl
  | cons decl decls ih =>
      obtain ⟨first, later⟩ := List.forall_mem_cons.1 readsValue
      rw [List.foldlM_cons] at runs
      obtain ⟨draft, m, one, others⟩ := runs_bind.1 runs
      have inside : Within edits last draft.1.edits m :=
        bounded_of_runs_foldlM (fun draft => Within edits last draft.1.edits)
          (fun _ _ _ _ _ => statement_within) others within
      obtain ⟨checked, next, passed, added, rfl⟩ := runs_validateStatement.1 one
      have edit : checked.edit = decl.target.edit? f := by
        refine statement_edit first passed fun span type member made => ?_
        rw [made] at added
        cases one : u.edits.add ⟨span, type.name⟩ with
        | error e => simp [one, bind, Except.bind] at added
        | ok list =>
            simp only [Option.toList_some, List.foldlM_cons, one, List.foldlM_nil] at added
            cases added
            obtain ⟨perm, _⟩ := EditList.add_perm one
            exact foundIn.value span type member
              (inside.edits.gathered.1 _ (perm.mem_iff.2 (.head _)))
      rw [Scanner.filterMap_cons_eq, ← edit]
      exact EditList.foldlM_append_eq_ok.2 ⟨next, added, ih later others⟩

theorem method_edits (foundIn : f.FoundIn unit edits shapes)
    (readsValue : ∀ s ∈ method.statements, Scanner.ReadsValue s)
    (typed : Typed f u.params method.params) (runs : Runs (v.validateMethod unit u method) s w t)
    (within : Within edits last w.edits t) :
    (method.edits f).foldlM EditList.add u.edits = .ok w.edits := by
  obtain ⟨draft, statements, types, next, m, checks, mapped, added, rfl⟩ :=
    runs_validateMethod.1 runs
  have inside : Within edits last draft.edits m :=
    bounded_of_runs_foldlM (Within edits last) (fun _ _ _ _ _ => paramEdit_within) added within
  obtain ⟨_, _, _, same, _, _⟩ := statements_trace checks
  rw [same] at mapped
  refine EditList.foldlM_append_eq_ok.2
    ⟨draft.edits, statements_edits foundIn readsValue checks inside, ?_⟩
  exact ((runs_paramEdits typed mapped).1 added).1

theorem methods_edits (foundIn : f.FoundIn unit edits shapes) {decls : List MethodDecl}
    (readsValue : ∀ m ∈ decls, ∀ s ∈ m.statements, Scanner.ReadsValue s)
    (typed : ∀ m ∈ decls, Typed f u.params m.params)
    (runs : Runs (decls.foldlM (v.validateMethod unit) u) s w t)
    (within : Within edits last w.edits t) :
    (decls.flatMap (·.edits f)).foldlM EditList.add u.edits = .ok w.edits := by
  induction decls generalizing u s with
  | nil =>
      obtain ⟨rfl, rfl⟩ := runs_pure.1 runs
      rfl
  | cons decl decls ih =>
      obtain ⟨first, later⟩ := List.forall_mem_cons.1 readsValue
      obtain ⟨here, there⟩ := List.forall_mem_cons.1 typed
      rw [List.foldlM_cons] at runs
      obtain ⟨next, m, one, others⟩ := runs_bind.1 runs
      have inside : Within edits last next.edits m :=
        bounded_of_runs_foldlM (fun u => Within edits last u.edits)
          (fun _ _ _ _ _ => method_within) others within
      obtain ⟨_, _, same, _, _⟩ := method_trace one
      rw [← same] at there
      rw [List.flatMap_cons]
      exact EditList.foldlM_append_eq_ok.2
        ⟨next.edits, method_edits foundIn first here one inside, ih later there others⟩

/-- The edits of a unit that passed fill in its parameters and values with what was found. -/
theorem validate_edits {path source : String} {connections : ConnectionSource}
    {run last : RunRecord} (read : SourceUnit.scan path source = .ok unit)
    (passed : v.validate connections unit run = (.ok u, last)) (shapes : ShapeRegistry) :
    (unit.methods.flatMap (·.edits (.found unit u.edits shapes))).foldlM EditList.add {} =
      .ok u.edits := by
  obtain ⟨table, c, stored, t, inferred, _, checks, _⟩ := validate_eq_ok.1 passed
  have within : Within u.edits t.shapes u.edits t := ⟨.refl _, .refl _⟩
  have compatible := (unit_within checks within).edits.gathered.2 .nil
  have foundIn := Filling.found_foundIn unit shapes compatible
  obtain ⟨_, _, _, _, unit', _, _, _, _, _, same⟩ :=
    SourceUnit.scan_fill read (.found unit u.edits shapes)
  obtain ⟨_, types⟩ :=
    Inference.ofUnit_filled (SourceUnit.filled_of_onLines same) foundIn.param inferred
  obtain ⟨w, methods, rfl⟩ := runs_validateMethods.1 checks
  refine methods_edits foundIn (SourceUnit.scan_readsValue read) ?_ methods within
  exact types

end SqlUnits.Validator
