import SqlUnits.Proofs.Check.Visit
import SqlUnits.Unit.Scanner
/-!
What checking a unit runs. Under a keyword that marks a mutation nothing runs; any other statement
is stepped once, whatever it does to the contents of tables.
-/

namespace SqlUnits

/-- Whether a statement leaves the contents as they are: it is explained, or it reads. -/
def Sql.Parsed.reads (p : Sql.Parsed) : Bool :=
  p.explain.isSome ||
    match p.statement with
    | .query _ | .pragma .. | .maintenance => true
    | .change _ | .schema _ | .transaction _ => false

def Action.alters : Action → Bool
  | .change _ | .schema _ | .transaction _ => true
  | _ => false

/-- Whether the first statement of a text, if there is one, leaves the contents as they are. -/
def textReads (sql : String) : Bool :=
  match Sql.Parsed.ofText sql.toList with
  | .ok (some p) => p.reads
  | _ => true

def StatementDecl.reads (s : StatementDecl) : Bool :=
  s.sql.all fun text => (Query.parse text.text).toOption.all fun q => textReads q.sql

namespace Connection

theorem run_contents (c : Connection) {s : Statement} (values : List Stored)
    (keeps : s.action.alters = false) : (c.run s values).connection.contents = c.contents := by
  unfold run
  cases action : s.action with
  | change plan => simp [action, Action.alters] at keeps
  | schema effect => simp [action, Action.alters] at keeps
  | transaction step => simp [action, Action.alters] at keeps
  | _ => rfl

theorem pragma_alters (c : Connection) (name : String) (argument : Option String) :
    (Statement.pragma c name argument).2.alters = false := by
  unfold Statement.pragma
  split <;> rfl

theorem ofParsed_alters {c : Connection} {p : Sql.Parsed} {s : Statement}
    (resolved : Statement.ofParsed c p = .ok s) (reads : p.reads = true) :
    s.action.alters = false := by
  unfold Statement.ofParsed at resolved
  cases found : Statement.resolve c p.statement with
  | error e => simp [found, bind, Except.bind] at resolved
  | ok pair =>
      obtain ⟨columns, action⟩ := pair
      simp only [found, bind, Except.bind, pure, Except.pure, Except.ok.injEq] at resolved
      subst resolved
      cases explain : p.explain with
      | some how => cases how <;> rfl
      | none =>
          simp only [Sql.Parsed.reads, explain, Option.isSome_none, Bool.false_or] at reads
          unfold Statement.resolve at found
          cases statement : p.statement with
          | query q =>
              rw [statement] at found
              cases planned : Statement.planned (Resolver.standard.query c.scope q) with
              | error e => simp [planned, bind, Except.bind] at found
              | ok plan =>
                  simp only [planned, bind, Except.bind, pure, Except.pure] at found
                  cases found
                  rfl
          | pragma name argument =>
              simp only [statement, pure, Except.pure, Except.ok.injEq] at found
              have quiet := pragma_alters c name argument
              rw [found] at quiet
              exact quiet
          | maintenance =>
              rw [statement] at found
              cases found
              rfl
          | _ => simp [statement] at reads

theorem prepare_alters {c : Connection} {sql : String} {s : Statement}
    (prepared : c.prepare sql = .ok s) (reads : textReads sql = true) :
    s.action.alters = false := by
  unfold prepare at prepared
  unfold textReads at reads
  cases parsed : Sql.Parsed.ofText sql.toList with
  | error p => simp [parsed] at prepared
  | ok first =>
      rw [parsed] at prepared reads
      cases first with
      | none =>
          cases prepared
          rfl
      | some p => exact ofParsed_alters (mapError_eq_ok.1 prepared) reads

end Connection

namespace Validator

def stored (v : Validator) (arg : (ValueType × Value) × Nat) : Except ValidationError Stored := do
  let ((type, value), index) := arg
  let mapper ← (v.registry.resolve type).mapError .ofAccess
  (mapper.write index value).mapError .ofAccess

/-- A statement prepared on a connection, and the values that it is bound to. -/
def prepared (v : Validator) (c : Connection) (sql : String) (args : Arguments) :
    Except ValidationError (Statement × List Stored) := do
  let s ← (c.prepare sql).mapError .ofDriver
  if s.paramCount ≠ args.values.length then
    throw (.configuration ("Statement has " ++ toString s.paramCount ++ " placeholders but " ++
      toString args.values.length ++ " parameters were bound"))
  pure (s, ← ((args.types.zip args.values).zipIdx 1).mapM v.stored)

theorem prepare_run (v : Validator) (sql : String) (args : Arguments) (s : CheckState) :
    ((v.prepare sql args).run).run s = (v.prepared s.connection sql args, s) := by
  unfold prepare prepared
  rw [run_bind, run_get]
  simp only
  rw [run_bind, run_lift]
  cases (s.connection.prepare sql).mapError ValidationError.ofDriver with
  | error e => rfl
  | ok statement =>
      change _ = (ite (statement.paramCount ≠ args.values.length) _ _, s)
      by_cases mismatch : statement.paramCount ≠ args.values.length
      · simp only [if_pos mismatch]
        rfl
      · simp only [if_neg mismatch]
        rw [run_bind, run_lift]
        change _ = (Except.bind (((args.types.zip args.values).zipIdx 1).mapM v.stored) _, s)
        cases outcome : ((args.types.zip args.values).zipIdx 1).mapM v.stored with
        | error e =>
            unfold stored at outcome
            rw [outcome]
            rfl
        | ok values =>
            unfold stored at outcome
            rw [outcome]
            rfl

theorem prepare_keeps (v : Validator) (sql : String) (args : Arguments) :
    Keeps (v.prepare sql args) := by
  intro s
  rw [prepare_run]

theorem askChecker_keeps (v : Validator) (site : Site) (call : CheckCall) :
    Keeps (v.askChecker site call) := by
  intro s
  unfold askChecker
  simp only [run_bind, run_get]
  split
  all_goals
    rename_i records
    try rw [run_bind, run_set]
    cases v.checker.check s.connection call with
    | ok _ => rfl
    | error e => cases e <;> rfl

theorem discover_run (v : Validator) (sql : String) (args : Arguments) (s : CheckState) :
    ((v.discover sql args).run).run s =
      match v.prepared s.connection sql args with
      | .error e => (.error e, s)
      | .ok (prepared, values) =>
          ((s.connection.describe sql prepared values).1.mapError .ofDriver,
            { s with connection := (s.connection.describe sql prepared values).2 }) := by
  unfold discover
  rw [run_bind, prepare_run]
  cases v.prepared s.connection sql args with
  | error e => rfl
  | ok pair => rfl

theorem discover_connection (v : Validator) (sql : String) (args : Arguments) (s : CheckState) :
    (((v.discover sql args).run).run s).2.connection =
      match v.prepared s.connection sql args with
      | .ok (prepared, values) => (s.connection.describe sql prepared values).2
      | .error _ => s.connection := by
  rw [discover_run]
  cases v.prepared s.connection sql args <;> rfl

/-- The statement that is prepared from the text of a site, with its text and the values that it
is bound to. -/
def bound (v : Validator) (params : ParamTable) (site : Site) (c : Connection) :
    Option (String × Statement × List Stored) := do
  let text ← site.statement.sql
  let q ← (Query.parse text.text).toOption
  let args ← (Arguments.ofStatement v.registry params site.method site.statement q).toOption
  let (s, values) ← (v.prepared c q.sql args).toOption
  pure (q.sql, s, values)

/-- The connection once a statement has been checked on it: the one step of what was bound. -/
def probe (v : Validator) (params : ParamTable) (site : Site) (c : Connection) : Connection :=
  if site.statement.convention.isMutation then c
  else
    match v.bound params site c with
    | some (sql, s, values) => (c.describe sql s values).2
    | none => c

theorem prepared_eq_ok {v : Validator} {c : Connection} {sql : String} {args : Arguments}
    {s : Statement} {values : List Stored} :
    v.prepared c sql args = .ok (s, values) ↔
      c.prepare sql = .ok s ∧ s.paramCount = args.values.length ∧
        ((args.types.zip args.values).zipIdx 1).mapM v.stored = .ok values := by
  unfold Validator.prepared
  cases found : c.prepare sql with
  | error e => simp [mapError_error, bind, Except.bind]
  | ok t =>
      simp only [mapError_ok, bind, Except.bind, Except.ok.injEq]
      constructor
      · intro prepared
        split at prepared
        · cases prepared
        · rename_i count
          cases written : ((args.types.zip args.values).zipIdx 1).mapM v.stored with
          | error e => simp [written] at prepared
          | ok stored =>
              simp only [written, pure, Except.pure, Except.ok.injEq, Prod.mk.injEq] at prepared
              obtain ⟨rfl, rfl⟩ := prepared
              exact ⟨rfl, Decidable.not_not.1 count, rfl⟩
      · rintro ⟨rfl, count, written⟩
        rw [if_neg (fun differs => differs count), written]
        rfl

theorem prepared_statement {v : Validator} {c : Connection} {sql : String} {args : Arguments}
    {s : Statement} {values : List Stored} (prepared : v.prepared c sql args = .ok (s, values)) :
    c.prepare sql = .ok s :=
  (prepared_eq_ok.1 prepared).1

theorem bound_alters {v : Validator} {params : ParamTable} {site : Site} {c : Connection}
    {sql : String} {s : Statement} {values : List Stored}
    (found : v.bound params site c = some (sql, s, values))
    (reads : site.statement.reads = true) : s.action.alters = false := by
  unfold bound at found
  unfold StatementDecl.reads at reads
  simp only [Option.bind_eq_bind, Option.bind_eq_some_iff, Option.pure_def, Option.some.injEq,
    Prod.mk.injEq, Prod.exists] at found
  obtain ⟨text, written, q, parsed, args, _, s', values', prepared, rfl, rfl, rfl⟩ := found
  rw [written] at reads
  simp only [Option.all_some, parsed] at reads
  cases result : v.prepared c q.sql args with
  | error e => simp [result, Except.toOption] at prepared
  | ok pair =>
      rw [result] at prepared
      cases prepared
      exact Connection.prepare_alters (prepared_statement result) reads

theorem probe_contents {v : Validator} {params : ParamTable} {site : Site} (c : Connection)
    (reads : site.statement.convention.isMutation = false → site.statement.reads = true) :
    (v.probe params site c).contents = c.contents := by
  unfold probe
  split
  · rfl
  · rename_i steps
    have reads := reads (Bool.eq_false_iff.2 steps)
    cases found : v.bound params site c with
    | none => rfl
    | some triple =>
        obtain ⟨sql, s, values⟩ := triple
        exact Connection.run_contents c values (bound_alters found reads)

theorem checkObject_keeps (v : Validator) (site : Site) (typed : TypedStatement)
    (args : List String) (call : CheckCall) : Keeps (v.checkObject site typed args call) :=
  (v.askChecker_keeps site call).bind fun _ => .pure _

theorem checkMutation_keeps (v : Validator) (site : Site) (typed : TypedStatement)
    (sql : String) (args : Arguments) : Keeps (v.checkMutation site typed sql args) := by
  refine (v.askChecker_keeps site (.sql sql)).bind fun note => ?_
  have prepares (text : String) := v.prepare_keeps text args
  cases site.statement.convention with
  | call => exact (Keeps.lift _).bind fun text => (prepares text).bind fun _ => .pure _
  | _ => exact (Keeps.pure sql).bind fun text => (prepares text).bind fun _ => .pure _

theorem checkRow_keeps (v : Validator) (site : Site) (typed : TypedStatement) (row : Ident)
    (columns : List ColumnInfo) : Keeps (v.checkRow site typed row columns) := by
  refine (Keeps.lift _).bind fun _ => ?_
  intro s
  rw [run_bind, run_get]
  simp only [run_bind, run_lift]
  cases (s.shapes.record _ _ _ _).mapError ValidationError.ofShape with
  | error e => rfl
  | ok merged => rfl

theorem checkQuery_connection (v : Validator) (site : Site) (typed : TypedStatement)
    (sql : String) (args : Arguments) (s : CheckState) :
    (((v.checkQuery site typed sql args).run).run s).2.connection =
      (((v.discover sql args).run).run s).2.connection := by
  unfold checkQuery
  rw [run_bind]
  cases ((v.discover sql args).run).run s with
  | mk result t =>
      cases result with
      | error e => rfl
      | ok columns =>
          cases site.statement.target with
          | none => rfl
          | row row => exact v.checkRow_keeps site typed row columns t
          | value declared span => exact (Keeps.lift _).bind (fun type => .pure _) t

theorem statement_connection (v : Validator) (params : ParamTable) (site : Site)
    (s : CheckState) :
    (((v.statement params site).run).run s).2.connection = v.probe params site s.connection := by
  unfold statement probe
  cases convention : site.statement.convention with
  | proc =>
      simp only [convention, Convention.isMutation, if_true]
      refine Keeps.bind (.lift _) (fun name => .bind (.lift _) fun args => ?_) s
      exact .bind (.lift _) fun types => v.checkObject_keeps site _ args _
  | nextval =>
      simp only [convention, Convention.isMutation, if_true]
      exact Keeps.bind (.lift _) (fun name => v.checkObject_keeps site _ _ _) s
  | call | update | insertKey =>
      simp only [convention, Convention.isMutation, if_true]
      cases site.statement.sql with
      | none => rfl
      | some text =>
          refine Keeps.bind (.lift _) (fun q => .bind (.lift _) fun args => ?_) s
          exact v.checkMutation_keeps site _ q.sql args
  | one | maybe | many | metadata | value | maybeValue | column =>
      simp only [convention, Convention.isMutation, Bool.false_eq_true, if_false]
      unfold bound
      cases site.statement.sql with
      | none => rfl
      | some text =>
          simp only [run_bind, run_lift, Option.bind_eq_bind, Option.bind_some]
          cases Query.parse text.text with
          | error e => rfl
          | ok q =>
              simp only [mapError_ok, Except.toOption, Option.bind_some]
              cases Arguments.ofStatement v.registry params site.method site.statement q with
              | error e => rfl
              | ok args =>
                  simp only [Option.bind_some]
                  rw [checkQuery_connection, discover_connection]
                  cases v.prepared s.connection q.sql args with
                  | error e => rfl
                  | ok pair => rfl

end Validator

/-- The statements of a unit in source order, where they stand. -/
def SourceUnit.sites (unit : SourceUnit) : List Site :=
  unit.methods.flatMap fun method => method.statements.map (⟨unit, method, ·⟩)

namespace Validating

theorem addEdit_keeps (stack : List Frame) (edits : EditList) (edit : Edit) :
    Keeps (addEdit stack edits edit) :=
  (Keeps.lift _).adapt _

end Validating

namespace Validator

variable {v : Validator} {params : ParamTable} {unit : SourceUnit}

theorem statement_visits (v : Validator) (params : ParamTable) (site : Site) :
    Visits (v.probe params) [site] (fun _ => True) (v.statement params site) := by
  intro s
  exact ⟨[site], List.prefix_rfl, v.statement_connection params site s, fun _ _ => ⟨rfl, trivial⟩⟩

theorem validateStatement_visits (unit : SourceUnit) (method : MethodDecl) (s : StatementDecl)
    (draft : ValidatedUnit × List TypedStatement) (table : draft.1.params = params) :
    Visits (v.probe params) [⟨unit, method, s⟩] (fun next => next.1.params = params)
      (v.validateStatement unit method draft s) := by
  obtain ⟨u, done⟩ := draft
  subst table
  refine ((statement_visits v _ _).adapt _).thenStill fun checked _ => ?_
  cases checked.edit with
  | none => exact (Visits.ofKeeps (.pure u.edits)).thenStill fun edits _ => .pure rfl
  | some edit =>
      exact (Visits.ofKeeps (Validating.addEdit_keeps _ u.edits edit)).thenStill
        fun edits _ => .pure rfl

theorem addParamEdit_keeps (edits : EditList) (p : ParamDecl × TypedParam) :
    Keeps (addParamEdit unit edits p) := by
  unfold addParamEdit
  split
  · exact .pure edits
  · exact Validating.addEdit_keeps _ _ _

theorem validateMethod_visits (unit : SourceUnit) (u : ValidatedUnit) (method : MethodDecl)
    (table : u.params = params) :
    Visits (v.probe params) (method.statements.map (⟨unit, method, ·⟩))
      (fun next => next.params = params) (v.validateMethod unit u method) := by
  have visits := Visits.foldlM (v.probe params)
    (fun draft : ValidatedUnit × List TypedStatement => draft.1.params = params)
    (fun draft s table => validateStatement_visits unit method s draft table)
    method.statements (u, []) table
  rw [← List.map_eq_flatMap] at visits
  refine visits.thenStill fun draft table => ?_
  refine (Visits.ofKeeps ((Keeps.lift _).adapt _)).thenStill fun typed _ => ?_
  refine (Visits.ofKeeps ?_).thenStill fun edits _ => .pure table
  exact Keeps.foldlM addParamEdit_keeps _ _

theorem validateMethods_visits (v : Validator) (params : ParamTable) (unit : SourceUnit) :
    Visits (v.probe params) unit.sites (fun _ => True) (v.validateMethods unit params) := by
  unfold validateMethods SourceUnit.sites
  have visits := Visits.foldlM (v.probe params) (fun u : ValidatedUnit => u.params = params)
    (fun u method table => validateMethod_visits unit u method table) unit.methods
    { unit := unit.name.name, path := unit.path, params } rfl
  exact visits.thenStill fun u _ => .pure trivial

theorem probes_contents {sites : List Site}
    (reads : ∀ site ∈ sites,
      site.statement.convention.isMutation = false → site.statement.reads = true) :
    ∀ c : Connection,
      (sites.foldl (fun c site => v.probe params site c) c).contents = c.contents := by
  induction sites with
  | nil => exact fun _ => rfl
  | cons site rest ih =>
      intro c
      rw [List.foldl_cons, ih fun next member => reads next (List.mem_cons_of_mem _ member)]
      exact probe_contents c (reads site List.mem_cons_self)

end Validator

end SqlUnits
