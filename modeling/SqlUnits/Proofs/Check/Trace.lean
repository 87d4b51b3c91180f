import SqlUnits.Proofs.Check.Gathering
/-!
The statements of a unit that passed, each with what the check made of it, as a trace of states.
-/

namespace SqlUnits

/-- The statements of a unit in source order, each with its place among typed methods. -/
def SourceUnit.checkedSites (unit : SourceUnit) (methods : List TypedMethod) :
    List (Site × TypedStatement) :=
  (unit.methods.zip methods).flatMap fun (method, typed) =>
    (method.statements.zip typed.statements).map fun (s, statement) =>
      (⟨unit, method, s⟩, statement)

theorem SourceUnit.mem_checkedSites {unit : SourceUnit} {methods : List TypedMethod}
    {method : MethodDecl} {typed : TypedMethod} {s : StatementDecl} {statement : TypedStatement}
    (paired : (method, typed) ∈ unit.methods.zip methods)
    (inside : (s, statement) ∈ method.statements.zip typed.statements) :
    (⟨unit, method, s⟩, statement) ∈ unit.checkedSites methods :=
  List.mem_flatMap.2 ⟨_, paired, List.mem_map.2 ⟨_, inside, rfl⟩⟩

/-- What the declaration of a method and its place in the artifact have in common. -/
structure MethodDecl.TypedAs (params : ParamTable) (method : MethodDecl)
    (typed : TypedMethod) : Prop where
  name : typed.name = method.name.name
  params : method.params.mapM (Validator.typedParam params) = .ok typed.params
  statements : typed.statements.length = method.statements.length

namespace Validator

variable {v : Validator} {params : ParamTable} {s m t : CheckState}

/-- Statements that pass one after the other. -/
inductive Trace (v : Validator) (params : ParamTable) :
    List (Site × TypedStatement) → CheckState → CheckState → Prop
  | done {s : CheckState} : Trace v params [] s s
  | step {site : Site} {checked : Checked} {rest : List (Site × TypedStatement)}
      {s m t : CheckState} :
      Runs (v.statement params site) s checked m → Trace v params rest m t →
      Trace v params ((site, checked.statement) :: rest) s t

namespace Trace

variable {sites more : List (Site × TypedStatement)}

theorem append (first : Trace v params sites s m) (second : Trace v params more m t) :
    Trace v params (sites ++ more) s t := by
  induction first with
  | done => exact second
  | step one _ ih => exact .step one (ih second)

theorem split {site : Site} {typed : TypedStatement}
    (trace : Trace v params (sites ++ (site, typed) :: more) s t) :
    ∃ before checked after, Trace v params sites s before ∧
      Runs (v.statement params site) before checked after ∧ checked.statement = typed ∧
      Trace v params more after t := by
  induction sites generalizing s with
  | nil =>
      cases trace with
      | @step _ checked _ _ m _ one rest => exact ⟨s, checked, m, .done, one, rfl, rest⟩
  | cons first sites ih =>
      cases trace with
      | step one rest =>
          obtain ⟨before, checked, after, lead, here, same, last⟩ := ih rest
          exact ⟨before, checked, after, .step one lead, here, same, last⟩

theorem grows (trace : Trace v params sites s t) : s.shapes.Grows t.shapes := by
  induction trace with
  | done => exact .refl _
  | step one _ ih => exact (statement_grows one).trans ih

/-- The connection takes the probe of every statement. -/
theorem connection (trace : Trace v params sites s t) :
    t.connection = sites.foldl (fun c pair => v.probe params pair.1 c) s.connection := by
  induction trace with
  | done => rfl
  | @step site checked rest s m t one _ ih =>
      have probed := v.statement_connection params site s
      have outcome : ((v.statement params site).run).run s = (.ok checked, m) := one
      rw [outcome] at probed
      rw [List.foldl_cons, ← probed]
      exact ih

end Trace

variable {unit : SourceUnit} {method : MethodDecl} {u w : ValidatedUnit}

theorem statements_trace {decls : List StatementDecl} {done statements : List TypedStatement}
    (runs : Runs (decls.foldlM (v.validateStatement unit method) (u, done)) s (w, statements) t) :
    ∃ typed, statements = done ++ typed ∧ typed.length = decls.length ∧
      w.params = u.params ∧ w.methods = u.methods ∧
      Trace v u.params
        ((decls.zip typed).map fun (s, typed) => (⟨unit, method, s⟩, typed)) s t := by
  induction decls generalizing u done s with
  | nil =>
      obtain ⟨same, rfl⟩ := runs_pure.1 runs
      cases same
      exact ⟨[], (List.append_nil _).symm, rfl, rfl, rfl, .done⟩
  | cons decl decls ih =>
      rw [List.foldlM_cons] at runs
      obtain ⟨draft, m, first, others⟩ := runs_bind.1 runs
      obtain ⟨checked, edits, passed, _, rfl⟩ := runs_validateStatement.1 first
      obtain ⟨typed, rfl, length, table, methods, trace⟩ := ih others
      refine ⟨checked.statement :: typed, ?_, ?_, table, methods, .step passed trace⟩
      · rw [List.append_assoc, List.singleton_append]
      · rw [List.length_cons, List.length_cons, length]

theorem addParamEdits_state {edits next : EditList} {ps : List (ParamDecl × TypedParam)}
    (runs : Runs (ps.foldlM (addParamEdit unit) edits) s next t) : t = s := by
  induction ps generalizing edits s with
  | nil => exact (runs_pure.1 runs).2
  | cons p ps ih =>
      rw [List.foldlM_cons] at runs
      obtain ⟨_, m, first, others⟩ := runs_bind.1 runs
      obtain ⟨_, rfl⟩ := runs_addParamEdit.1 first
      exact ih others

theorem method_trace (runs : Runs (v.validateMethod unit u method) s w t) :
    ∃ typed, w.methods = u.methods ++ [typed] ∧ w.params = u.params ∧
      method.TypedAs u.params typed ∧
      Trace v u.params ((method.statements.zip typed.statements).map fun (s, statement) =>
        (⟨unit, method, s⟩, statement)) s t := by
  obtain ⟨draft, statements, params, edits, m, checks, typed, added, rfl⟩ :=
    runs_validateMethod.1 runs
  obtain ⟨statements, rfl, length, table, methods, trace⟩ := statements_trace checks
  obtain rfl := addParamEdits_state added
  rw [table] at typed
  exact ⟨⟨method.name.name, params, statements⟩, by rw [methods], table,
    ⟨rfl, typed, length⟩, trace⟩

theorem methods_trace {decls : List MethodDecl}
    (runs : Runs (decls.foldlM (v.validateMethod unit) u) s w t) :
    ∃ typed, w.methods = u.methods ++ typed ∧ w.params = u.params ∧
      List.Forall₂ (MethodDecl.TypedAs u.params) decls typed ∧
      Trace v u.params ((decls.zip typed).flatMap fun (method, typed) =>
        (method.statements.zip typed.statements).map fun (s, statement) =>
          (⟨unit, method, s⟩, statement)) s t := by
  induction decls generalizing u s with
  | nil =>
      obtain ⟨rfl, rfl⟩ := runs_pure.1 runs
      exact ⟨[], (List.append_nil _).symm, rfl, .nil, .done⟩
  | cons decl decls ih =>
      rw [List.foldlM_cons] at runs
      obtain ⟨next, m, first, others⟩ := runs_bind.1 runs
      obtain ⟨typed, methods, table, typedAs, trace⟩ := method_trace first
      obtain ⟨more, methods', table', typedAs', trace'⟩ := ih others
      rw [table] at table' typedAs' trace'
      refine ⟨typed :: more, ?_, table', .cons typedAs typedAs', trace.append trace'⟩
      rw [methods', methods, List.append_assoc, List.singleton_append]

/-- A unit that passed, statement by statement. -/
structure Passing (v : Validator) (unit : SourceUnit) (u : ValidatedUnit)
    (run last : RunRecord) (opened : Connection) (t : CheckState) : Prop where
  inferred : Inference.ofUnit unit v.registry = .ok u.params
  typed : List.Forall₂ (MethodDecl.TypedAs u.params) unit.methods u.methods
  trace : Trace v u.params (unit.checkedSites u.methods)
    { connection := opened, shapes := run.shapes, checks := run.checks } t
  shapes : last.shapes = t.shapes

theorem Trace.visited {sites : List (Site × TypedStatement)} (trace : Trace v params sites s t)
    {site : Site} {typed : TypedStatement} (member : (site, typed) ∈ sites) :
    ∃ before checked after, Runs (v.statement params site) before checked after ∧
      checked.statement = typed ∧ after.shapes.Grows t.shapes := by
  obtain ⟨front, rest, rfl⟩ := List.append_of_mem member
  obtain ⟨before, checked, after, _, runs, same, last⟩ := trace.split
  exact ⟨before, checked, after, runs, same, last.grows⟩

/-- Every statement of the artifact comes from a check that passed. -/
theorem Passing.visited {run last : RunRecord} {opened : Connection}
    (passing : Passing v unit u run last opened t) {typed : TypedMethod}
    (member : typed ∈ u.methods) {statement : TypedStatement}
    (inside : statement ∈ typed.statements) :
    ∃ method ∈ unit.methods, method.TypedAs u.params typed ∧ ∃ decl ∈ method.statements,
      ∃ before checked after,
        Runs (v.statement u.params ⟨unit, method, decl⟩) before checked after ∧
        checked.statement = statement ∧ after.shapes.Grows t.shapes := by
  obtain ⟨length, pairs⟩ := List.forall₂_iff_zip.1 passing.typed
  rw [← List.map_snd_zip length.ge] at member
  obtain ⟨⟨method, _⟩, paired, rfl⟩ := List.mem_map.1 member
  have typedAs : method.TypedAs u.params _ := pairs paired
  rw [← List.map_snd_zip typedAs.statements.le] at inside
  obtain ⟨⟨decl, _⟩, paired', rfl⟩ := List.mem_map.1 inside
  exact ⟨method, (List.of_mem_zip paired).1, typedAs, decl, (List.of_mem_zip paired').1,
    passing.trace.visited (SourceUnit.mem_checkedSites paired paired')⟩

/-- Each method of a unit that passed is in the artifact, with each of its statements. -/
theorem Passing.each {run last : RunRecord} {opened : Connection}
    (passing : Passing v unit u run last opened t) {method : MethodDecl}
    (member : method ∈ unit.methods) :
    ∃ typed ∈ u.methods, method.TypedAs u.params typed ∧ ∀ decl ∈ method.statements,
      ∃ statement ∈ typed.statements, ∃ before checked after,
        Runs (v.statement u.params ⟨unit, method, decl⟩) before checked after ∧
        checked.statement = statement ∧ after.shapes.Grows t.shapes := by
  obtain ⟨length, pairs⟩ := List.forall₂_iff_zip.1 passing.typed
  rw [← List.map_fst_zip length.le] at member
  obtain ⟨⟨_, typed⟩, paired, rfl⟩ := List.mem_map.1 member
  have typedAs : MethodDecl.TypedAs u.params _ typed := pairs paired
  refine ⟨typed, (List.of_mem_zip paired).2, typedAs, fun decl inside => ?_⟩
  rw [← List.map_fst_zip typedAs.statements.ge] at inside
  obtain ⟨⟨_, statement⟩, paired', rfl⟩ := List.mem_map.1 inside
  exact ⟨statement, (List.of_mem_zip paired').2,
    passing.trace.visited (SourceUnit.mem_checkedSites paired paired')⟩

theorem validate_passing {source : ConnectionSource} {run last : RunRecord}
    (passed : v.validate source unit run = (.ok u, last)) :
    ∃ opened stored t, source.connect (run.stored.getD {}) = (.ok opened, stored) ∧
      Passing v unit u run last opened t := by
  obtain ⟨table, opened, stored, t, inferred, connected, checks, rfl⟩ := validate_eq_ok.1 passed
  obtain ⟨w, folds, rfl⟩ := runs_validateMethods.1 checks
  obtain ⟨typed, methods, params, typedAs, trace⟩ := methods_trace folds
  obtain rfl : w.methods = typed := methods
  obtain rfl : w.params = table := params
  exact ⟨opened, stored, t, connected, inferred, typedAs, trace, rfl⟩

end Validator

end SqlUnits
