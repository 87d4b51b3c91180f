import SqlUnits.Proofs.Check.Visit
import SqlUnits.Proofs.Check.Discovered
import SqlUnits.Proofs.Check.Passing
import SqlUnits.Proofs.Edit.Splice
/-!
What the check of a unit gathers. Edits are only added. Shapes only grow, whether a unit passes or
fails, so what is known of a row type once a unit has passed is still known, and covered, when the
run is over. Of a unit that passes it is noted what was not run, and what is not used; whatever
fails a unit has a code of its own.
-/

namespace SqlUnits

namespace ShapeRegistry

/-- What one registry knows, the other one covers; if the types of all columns are built in here,
they are there. -/
structure Grows (shapes others : ShapeRegistry) : Prop where
  below : shapes.Below others
  builtin : shapes.Builtin → others.Builtin

theorem Grows.refl (shapes : ShapeRegistry) : shapes.Grows shapes :=
  ⟨.refl shapes, id⟩

theorem Grows.trans {a b c : ShapeRegistry} (first : a.Grows b) (second : b.Grows c) :
    a.Grows c :=
  ⟨first.below.trans second.below, second.builtin ∘ first.builtin⟩

end ShapeRegistry

namespace Validator

variable {v : Validator} {site : Site} {s t : CheckState} {checked : Checked}

theorem asked_shapes (v : Validator) (call : CheckCall) (s : CheckState) :
    (v.asked call s).shapes = s.shapes := by
  unfold asked
  split <;> rfl

theorem query_grows {typed : TypedStatement} {sql : String} {args : Arguments}
    (runs : Runs (v.checkQuery site typed sql args) s checked t) : s.shapes.Grows t.shapes := by
  obtain ⟨columns, u, discovered, rest⟩ := runs_checkQuery.1 runs
  obtain ⟨_, _, _, described, rfl⟩ := runs_discover.1 discovered
  have known := Connection.describe_mem described
  cases target : site.statement.target with
  | row row =>
      rw [target] at rest
      obtain ⟨_, _, _, recorded, rfl, _⟩ := runs_checkRow.1 rest
      exact ⟨ShapeRegistry.record_below recorded, fun builtin => builtin.record recorded known⟩
  | value | none =>
      rw [target] at rest
      obtain ⟨_, rfl⟩ := rest
      exact .refl _

theorem statement_grows {params : ParamTable} (runs : Runs (v.statement params site) s checked t) :
    s.shapes.Grows t.shapes := by
  have object {typed : TypedStatement} {args : List String} {call : CheckCall}
      (runs : Runs (v.checkObject site typed args call) s checked t) :
      s.shapes.Grows t.shapes := by
    obtain ⟨_, _, rfl, _⟩ := runs_checkObject.1 runs
    rw [asked_shapes]
    exact .refl _
  by_cases proc : site.statement.convention = .proc
  · obtain ⟨_, _, _, _, _, _, rest⟩ := (runs_statement_proc proc).1 runs
    exact object rest
  · by_cases nextval : site.statement.convention = .nextval
    · obtain ⟨_, _, rest⟩ := (runs_statement_nextval nextval).1 runs
      exact object rest
    · obtain ⟨_, _, _, _, _, _, rest⟩ := (runs_statement_sql proc nextval).1 runs
      split at rest
      · obtain ⟨_, _, _, _, _, _, rfl, _⟩ := runs_checkMutation.1 rest
        rw [asked_shapes]
        exact .refl _
      · exact query_grows rest

/-! The parts of the check of a unit, as they pass. -/

variable {unit : SourceUnit} {method : MethodDecl} {u d : ValidatedUnit}

theorem runs_within {α : Type} {stack : List Frame} {x : Checking α} {a : α} :
    Runs (Validating.within stack x) s a t ↔ Runs x s a t :=
  runs_adapt

theorem runs_addEdit {stack : List Frame} {edits next : EditList} {edit : Edit} :
    Runs (Validating.addEdit stack edits edit) s next t ↔ edits.add edit = .ok next ∧ t = s := by
  unfold Validating.addEdit
  rw [runs_within, runs_lift, mapError_eq_ok]

theorem runs_validateStatement {done : List TypedStatement} {statement : StatementDecl}
    {draft : ValidatedUnit × List TypedStatement} :
    Runs (v.validateStatement unit method (u, done) statement) s draft t ↔
      ∃ checked edits, Runs (v.statement u.params ⟨unit, method, statement⟩) s checked t ∧
        checked.edit.toList.foldlM EditList.add u.edits = .ok edits ∧
        draft = ({ u with edits, diagnostics := u.diagnostics ++ checked.note.toList },
          done ++ [checked.statement]) := by
  unfold validateStatement
  simp only [runs_bind, runs_within]
  refine exists_congr fun checked => ?_
  constructor
  · rintro ⟨_, checks, rest⟩
    cases edit : checked.edit with
    | none =>
        simp only [edit, pure_bind, runs_pure] at rest
        obtain ⟨rfl, rfl⟩ := rest
        exact ⟨u.edits, checks, rfl, rfl⟩
    | some edit' =>
        simp only [edit, runs_bind, runs_addEdit, runs_pure] at rest
        obtain ⟨edits, _, ⟨added, rfl⟩, rfl, rfl⟩ := rest
        exact ⟨edits, checks, by simpa using added, rfl⟩
  · rintro ⟨edits, checks, added, rfl⟩
    refine ⟨t, checks, ?_⟩
    cases edit : checked.edit with
    | none =>
        rw [edit] at added
        cases added
        simp only [pure_bind, runs_pure]
        exact ⟨trivial, trivial⟩
    | some edit' =>
        rw [edit] at added
        simp only [runs_bind, runs_addEdit, runs_pure]
        exact ⟨edits, t, ⟨by simpa using added, rfl⟩, rfl, rfl⟩

theorem runs_addParamEdit {edits next : EditList} {p : ParamDecl} {typed : TypedParam} :
    Runs (addParamEdit unit edits (p, typed)) s next t ↔
      (if p.type.isSome then none
        else some (Edit.insertion p.insertionPoint (": " ++ typed.type.name))).toList.foldlM
          EditList.add edits = .ok next ∧ t = s := by
  unfold addParamEdit
  dsimp only
  split
  · rw [runs_pure, eq_comm]
    simp [pure, Except.pure]
  · rw [runs_addEdit]
    simp

theorem runs_validateMethod :
    Runs (v.validateMethod unit u method) s d t ↔
      ∃ w statements params edits t',
        Runs (method.statements.foldlM (v.validateStatement unit method) (u, [])) s
          (w, statements) t' ∧
        method.params.mapM (typedParam w.params) = .ok params ∧
        Runs ((method.params.zip params).foldlM (addParamEdit unit) w.edits) t' edits t ∧
        d = { w with edits, methods := w.methods ++ [⟨method.name.name, params, statements⟩] } := by
  unfold validateMethod
  simp only [runs_bind, runs_within, runs_lift, runs_pure]
  constructor
  · rintro ⟨⟨w, statements⟩, t', checks, params, _, ⟨typed, rfl⟩, edits, _, added, rfl, rfl⟩
    exact ⟨w, statements, params, edits, _, checks, typed, added, rfl⟩
  · rintro ⟨w, statements, params, edits, t', checks, typed, added, rfl⟩
    exact ⟨(w, statements), t', checks, params, t', ⟨typed, rfl⟩, edits, t, added, rfl, rfl⟩

theorem runs_validateMethods {params : ParamTable} :
    Runs (v.validateMethods unit params) s d t ↔
      ∃ u, Runs (unit.methods.foldlM (v.validateMethod unit)
          { unit := unit.name.name, path := unit.path, params }) s u t ∧
        d = { u with diagnostics := u.diagnostics ++ v.warnings unit u.methods } := by
  unfold validateMethods
  simp only [runs_bind, runs_pure]
  constructor
  · rintro ⟨u, _, checks, rfl, rfl⟩
    exact ⟨u, checks, rfl⟩
  · rintro ⟨u, checks, rfl⟩
    exact ⟨u, t, checks, rfl, rfl⟩

/-- What a check has gathered so far is among what there is in the end. -/
structure Within (edits : EditList) (shapes : ShapeRegistry) (found : EditList)
    (s : CheckState) : Prop where
  edits : found.Extends edits
  shapes : s.shapes.Grows shapes

variable {edits : EditList} {shapes : ShapeRegistry}

theorem statement_within {draft last : ValidatedUnit × List TypedStatement}
    {statement : StatementDecl}
    (runs : Runs (v.validateStatement unit method draft statement) s last t)
    (within : Within edits shapes last.1.edits t) : Within edits shapes draft.1.edits s := by
  obtain ⟨checked, next, checks, added, rfl⟩ := runs_validateStatement.1 runs
  exact ⟨.trans ⟨_, added⟩ within.edits, (statement_grows checks).trans within.shapes⟩

theorem paramEdit_within {found next : EditList} {p : ParamDecl × TypedParam}
    (runs : Runs (addParamEdit unit found p) s next t) (within : Within edits shapes next t) :
    Within edits shapes found s := by
  obtain ⟨added, rfl⟩ := runs_addParamEdit.1 runs
  exact ⟨.trans ⟨_, added⟩ within.edits, within.shapes⟩

theorem method_within (runs : Runs (v.validateMethod unit u method) s d t)
    (within : Within edits shapes d.edits t) : Within edits shapes u.edits s := by
  obtain ⟨w, statements, params, next, t', checks, _, added, rfl⟩ := runs_validateMethod.1 runs
  have middle : Within edits shapes w.edits t' :=
    bounded_of_runs_foldlM (Within edits shapes) (fun _ _ _ _ _ => paramEdit_within) added within
  exact bounded_of_runs_foldlM (fun draft => Within edits shapes draft.1.edits)
    (fun _ _ _ _ _ => statement_within) checks middle

theorem unit_within {params : ParamTable} (runs : Runs (v.validateMethods unit params) s d t)
    (within : Within edits shapes d.edits t) : Within edits shapes {} s := by
  obtain ⟨u, methods, rfl⟩ := runs_validateMethods.1 runs
  exact bounded_of_runs_foldlM (fun u => Within edits shapes u.edits)
    (fun _ _ _ _ _ => method_within) methods within

variable {source : ConnectionSource} {run last : RunRecord}

theorem validate_eq_ok :
    v.validate source unit run = (.ok u, last) ↔
      ∃ table c stored t, Inference.ofUnit unit v.registry = .ok table ∧
        source.connect (run.stored.getD {}) = (.ok c, stored) ∧
        Runs (v.validateMethods unit table)
          { connection := c, shapes := run.shapes, checks := run.checks } u t ∧
        last = ⟨t.shapes, t.checks, run.calls ++ t.connection.calls,
          some (source.afterClose stored t.connection)⟩ := by
  unfold validate
  cases inferred : Inference.ofUnit unit v.registry with
  | error failure => simp
  | ok table =>
      dsimp only
      rcases connected : source.connect (run.stored.getD {}) with ⟨_ | c, stored⟩
      · simp
      · dsimp only
        constructor
        · intro passed
          rcases outcome : ((v.validateMethods unit table).run).run
            { connection := c, shapes := run.shapes, checks := run.checks } with ⟨result, t⟩
          rw [outcome] at passed
          cases passed
          exact ⟨table, c, stored, t, rfl, rfl, outcome, rfl⟩
        · rintro ⟨_, _, _, t, ⟨⟩, ⟨⟩, checks, rfl⟩
          unfold Runs at checks
          rw [checks]

end Validator

/-- Whatever comes of a computation, the shapes have only grown. -/
def GrowsShapes (x : ExceptT ε (StateM CheckState) α) : Prop :=
  ∀ s : CheckState, s.shapes.Grows ((x.run).run s).2.shapes

theorem GrowsShapes.composes : Composes @GrowsShapes where
  pure _ := fun s => .refl s.shapes
  throw _ := fun s => .refl s.shapes
  bind := by
    intro _ _ _ x k first second s
    have grows := first s
    rw [run_bind]
    cases outcome : (x.run).run s with
    | mk result t =>
        rw [outcome] at grows
        cases result with
        | error e => exact grows
        | ok a => exact grows.trans (second a t)
  adapt grows _ := grows

namespace Validator

theorem discover_grows (v : Validator) (sql : String) (args : Arguments) :
    GrowsShapes (v.discover sql args) := by
  intro s
  rw [discover_run]
  split <;> exact .refl s.shapes

theorem checkRow_grows (v : Validator) (site : Site) (typed : TypedStatement) (row : Ident)
    {columns : List ColumnInfo}
    (known : ∀ column ∈ columns, ∀ t, column.valueType = some t → t ∈ ValueType.builtins) :
    GrowsShapes (v.checkRow site typed row columns) := by
  intro s
  rw [checkRow_run]
  split
  · exact .refl s.shapes
  · split
    · exact .refl s.shapes
    · rename_i recorded
      exact ⟨ShapeRegistry.record_below recorded, fun builtin => builtin.record recorded known⟩

theorem checkQuery_grows (v : Validator) (site : Site) (typed : TypedStatement) (sql : String)
    (args : Arguments) : GrowsShapes (v.checkQuery site typed sql args) := by
  intro s
  have grows := discover_grows v sql args s
  have rules := GrowsShapes.composes
  unfold checkQuery
  rw [run_bind]
  cases outcome : ((v.discover sql args).run).run s with
  | mk result t =>
      rw [outcome] at grows
      cases result with
      | error e => exact grows
      | ok columns =>
          apply grows.trans
          obtain ⟨_, _, _, described, _⟩ := runs_discover.1 (outcome : Runs _ s columns t)
          have known := Connection.describe_mem described
          cases site.statement.target with
          | row row => exact checkRow_grows v site typed row known t
          | value declared span => exact rules.bind (rules.lift _) (fun _ => rules.pure _) t
          | none => exact .refl t.shapes

theorem prepare_grows (v : Validator) (sql : String) (args : Arguments) :
    GrowsShapes (v.prepare sql args) := by
  intro s
  rw [prepare_run]
  exact .refl s.shapes

theorem parts_grow (v : Validator) (unit : SourceUnit) : v.HasParts unit @GrowsShapes where
  ask method s call state := by
    rw [askChecker_run, asked_shapes]
    exact .refl state.shapes
  prepare sql args _ :=
    GrowsShapes.composes.bind (prepare_grows v sql args) fun _ => GrowsShapes.composes.pure _
  query method s typed sql args := checkQuery_grows v ⟨unit, method, s⟩ typed sql args

/-- Checking a unit takes nothing from the shapes of a run. -/
theorem validate_grows (v : Validator) (source : ConnectionSource) (unit : SourceUnit)
    (run : RunRecord) : run.shapes.Grows (v.validate source unit run).2.shapes := by
  unfold validate
  cases Inference.ofUnit unit v.registry with
  | error failure => exact .refl run.shapes
  | ok params =>
      rcases source.connect (run.stored.getD {}) with ⟨_ | connection, stored⟩
      · exact .refl run.shapes
      · exact GrowsShapes.composes.validateMethods (v.parts_grow unit) params
          ⟨connection, run.shapes, run.checks⟩

end Validator

/-- A run that goes on to check other units. -/
inductive RunRecord.Leads : RunRecord → RunRecord → Prop
  | done {run : RunRecord} : Leads run run
  | next {run last : RunRecord} (v : Validator) (source : ConnectionSource) (unit : SourceUnit) :
      Leads (v.validate source unit run).2 last → Leads run last

theorem RunRecord.Leads.grows {run last : RunRecord} (leads : run.Leads last) :
    run.shapes.Grows last.shapes := by
  induction leads with
  | done => exact .refl _
  | next v source unit _ ih => exact (v.validate_grows source unit _).trans ih

/-- Codes of what is noted of a unit that passes. -/
def DiagnosticCode.isNote : DiagnosticCode → Bool
  | paramUnused | rowUnused | mutationNotExecuted | info => true
  | _ => false

/-- Diagnostics of which each is a note. -/
def Noted (diagnostics : List Diagnostic) : Prop :=
  ∀ d ∈ diagnostics, d.code.isNote = true

/-- The severity with which a code is raised; a warning has the one of the warn mode. -/
def DiagnosticCode.severity? (mode : WarnMode) : DiagnosticCode → Option Severity
  | paramUnused | rowUnused => mode.severity?
  | mutationNotExecuted | info => some .info
  | _ => some .error

/-- Notes with the severities with which they are raised. -/
def Raised (mode : WarnMode) (diagnostics : List Diagnostic) : Prop :=
  ∀ d ∈ diagnostics, d.code.isNote = true ∧ d.code.severity? mode = some d.severity

section

variable {mode : WarnMode} {first second : List Diagnostic}

theorem Raised.nil : Raised mode [] :=
  fun _ member => absurd member List.not_mem_nil

theorem Raised.append (raised : Raised mode first) (raised' : Raised mode second) :
    Raised mode (first ++ second) := by
  intro d member
  exact (List.mem_append.1 member).elim (raised d) (raised' d)

theorem Raised.noted (raised : Raised mode first) : Noted first :=
  fun d member => (raised d member).1

end

/-- What is noted of a statement that does not run: that it was only checked, or why not even
that. -/
inductive Site.Noted (site : Site) : Diagnostic → Prop
  | unexecuted : Noted site {
      code := .mutationNotExecuted
      severity := .info
      message := site.statement.convention.keyword ++ " statement in " ++ site.owner ++
        " was checked but not executed; constraints were not exercised"
      location := some site.location }
  | unchecked (reason : String) : Noted site {
      code := .info
      severity := .info
      message := site.statement.convention.keyword ++ " statement in " ++ site.owner ++
        (" was not checked: " ++ reason)
      location := some site.location }

theorem Site.Noted.raised {site : Site} {d : Diagnostic} (noted : site.Noted d) (mode : WarnMode) :
    d.code.isNote = true ∧ d.code.severity? mode = some d.severity := by
  cases noted with
  | unexecuted | unchecked => exact ⟨rfl, rfl⟩

/-- What rejects a unit is no note. -/
theorem ValidationError.code_isNote (e : ValidationError) : e.code.isNote = false := by
  cases e <;> rfl

namespace Validator

variable {v : Validator} {site : Site} {s t : CheckState} {checked : Checked} {unit : SourceUnit}
  {method : MethodDecl} {u d : ValidatedUnit}

theorem note_noted {answer : Except CheckError Unit} {d : Diagnostic}
    (answered : note site answer = .ok d) : site.Noted d := by
  unfold note at answered
  split at answered
  · cases answered
    exact .unexecuted
  · cases answered
    exact .unchecked _
  · cases answered

theorem query_noted {typed : TypedStatement} {sql : String} {args : Arguments}
    (runs : Runs (v.checkQuery site typed sql args) s checked t) : checked.note = none := by
  obtain ⟨columns, m, discovered, rest⟩ := runs_checkQuery.1 runs
  cases target : site.statement.target with
  | row row =>
      rw [target] at rest
      obtain ⟨_, _, _, _, _, rfl⟩ := runs_checkRow.1 rest
      rfl
  | value declared span =>
      rw [target] at rest
      obtain ⟨made, _⟩ := rest
      unfold valueChecked at made
      cases found : DeclaredValue.check v.registry site.statement.convention site.owner declared
          columns with
      | error e =>
          rw [found] at made
          cases made
      | ok type =>
          rw [found] at made
          cases made
          rfl
  | none =>
      rw [target] at rest
      obtain ⟨rfl, _⟩ := rest
      rfl

/-- Of a statement there is a note exactly if it does not run. -/
theorem statement_noted {params : ParamTable} (runs : Runs (v.statement params site) s checked t) :
    List.Forall₂ Site.Noted ([site].filter (·.statement.convention.isMutation))
      checked.note.toList := by
  have single {d : Diagnostic} (mutation : site.statement.convention.isMutation = true)
      (noted : site.Noted d) :
      List.Forall₂ Site.Noted ([site].filter (·.statement.convention.isMutation)) [d] := by
    simpa [mutation] using noted
  by_cases proc : site.statement.convention = .proc
  · obtain ⟨_, _, _, _, _, _, rest⟩ := (runs_statement_proc proc).1 runs
    obtain ⟨_, answered, _, rfl⟩ := runs_checkObject.1 rest
    exact single (by rw [proc]; rfl) (note_noted answered)
  · by_cases nextval : site.statement.convention = .nextval
    · obtain ⟨_, _, rest⟩ := (runs_statement_nextval nextval).1 runs
      obtain ⟨_, answered, _, rfl⟩ := runs_checkObject.1 rest
      exact single (by rw [nextval]; rfl) (note_noted answered)
    · obtain ⟨_, _, _, _, _, _, rest⟩ := (runs_statement_sql proc nextval).1 runs
      split at rest
      case isTrue mutation =>
        obtain ⟨_, _, _, answered, _, _, _, rfl⟩ := runs_checkMutation.1 rest
        exact single mutation (note_noted answered)
      case isFalse query =>
        rw [query_noted rest]
        simp [query]

theorem method_noted (runs : Runs (v.validateMethod unit u method) s d t) :
    ∃ notes, List.Forall₂ Site.Noted ((method.statements.map (⟨unit, method, ·⟩)).filter
        fun site : Site => site.statement.convention.isMutation) notes ∧
      d.diagnostics = u.diagnostics ++ notes := by
  obtain ⟨w, statements, _, _, m, checks, _, _, rfl⟩ := runs_validateMethod.1 runs
  rw [List.map_eq_flatMap, List.filter_flatMap]
  refine added_of_runs_foldlM (fun draft : ValidatedUnit × List TypedStatement =>
    draft.1.diagnostics) _ ?_ checks
  intro draft statement s last t runs
  obtain ⟨checked, _, checks, _, rfl⟩ := runs_validateStatement.1 runs
  exact ⟨_, statement_noted checks, rfl⟩

/-- What is said of a unit that passes: a note for each statement that did not run, in the order of
these, and then the warnings. -/
theorem validate_noted {source : ConnectionSource} {run last : RunRecord}
    (passed : v.validate source unit run = (.ok u, last)) :
    ∃ notes, List.Forall₂ Site.Noted
        (unit.sites.filter (·.statement.convention.isMutation)) notes ∧
      u.diagnostics = notes ++ v.warnings unit u.methods := by
  obtain ⟨table, _, _, m, _, _, checks, _⟩ := validate_eq_ok.1 passed
  obtain ⟨w, methods, rfl⟩ := runs_validateMethods.1 checks
  obtain ⟨notes, noted, said⟩ := added_of_runs_foldlM (·.diagnostics) _
    (fun _ _ _ _ _ => method_noted) methods
  refine ⟨notes, ?_, congrArg (· ++ _) said⟩
  rw [SourceUnit.sites, List.filter_flatMap]
  exact noted

theorem warnings_raised (v : Validator) (unit : SourceUnit) (methods : List TypedMethod) :
    Raised v.warn (v.warnings unit methods) := by
  unfold warnings
  cases chosen : v.warn.severity? with
  | none => exact .nil
  | some severity =>
      refine .append (fun d member => ?_) fun d member => ?_
      · obtain ⟨method, _, inside⟩ := List.mem_flatMap.1 member
        obtain ⟨param, _, rfl⟩ := List.mem_map.1 inside
        exact ⟨rfl, chosen⟩
      · obtain ⟨row, _, rfl⟩ := List.mem_map.1 member
        exact ⟨rfl, chosen⟩

/-- All that is said of a unit that passes are notes, raised as the warn mode has it. -/
theorem validate_raised {source : ConnectionSource} {run last : RunRecord}
    (passed : v.validate source unit run = (.ok u, last)) : Raised v.warn u.diagnostics := by
  obtain ⟨notes, noted, said⟩ := validate_noted passed
  rw [said]
  refine .append (fun d member => ?_) (v.warnings_raised unit u.methods)
  obtain ⟨_, _, here⟩ := (forall₂_mem noted).2 d member
  exact here.raised v.warn

end Validator

end SqlUnits
