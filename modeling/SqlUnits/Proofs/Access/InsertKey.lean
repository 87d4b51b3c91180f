import SqlUnits.Proofs.Access.Statement
import SqlUnits.Proofs.Check.Binding
import SqlUnits.Proofs.Database.Insertion
/-!
What an insert is answered with: the number of the last row that it put in. Where it put in none,
the number of an earlier row stands on the connection, and that is the answer.
-/

namespace SqlUnits

theorem afterCalls_calls (calls : List FunctionCall) :
    Run.afterCalls (calls.map (Event.called (α := α))) = [] := by
  induction calls with
  | nil => rfl
  | cons call calls ih => exact ih

/-- A run without items, of which the first one is looked for, has not failed. -/
theorem Run.failure_of_first? {calls : List FunctionCall} {failure : Option String}
    {found : Option α}
    (looked : ((⟨calls.map .called, failure⟩ : Run α).first?.outcome).1 = .ok found) :
    failure = none := by
  let run : Run α := ⟨calls.map .called, failure⟩
  have runs : Runs run.first? [] found run.first?.outcome.2 := Prod.ext looked rfl
  obtain ⟨_, _, _, rest⟩ := runs_bind.1 runs
  rw [show run.events = calls.map .called from rfl, afterCalls_calls] at rest
  cases failure with
  | none => rfl
  | some m => exact absurd rest not_runs_throw

/-- Whether the first statement of a text is an insert. -/
def Sql.inserts (sql : String) : Bool :=
  match Sql.Parsed.ofText sql.toList with
  | .ok (some ⟨none, .change (.insert ..), _, _⟩) => true
  | _ => false

theorem Statement.planned_bind_pure {p : Planner α} {f : α → β} {b : β}
    (done : Statement.planned (p >>= fun a => pure (f a)) = .ok b) :
    ∃ a, Statement.planned p = .ok a ∧ f a = b := by
  unfold Statement.planned at done ⊢
  rw [StateT.run_bind] at done
  cases ran : p.run [] with
  | error e =>
      rw [ran] at done
      cases done
  | ok pair =>
      rw [ran] at done
      exact ⟨pair.1, rfl, Except.ok.inj done⟩

namespace Connection

/-- The insert that a text means on a connection. -/
def insertion? (c : Connection) (sql : String) : Option Change.Insertion :=
  match Sql.Parsed.ofText sql.toList with
  | .ok (some ⟨none, .change (.insert common conflict table columns source upsert returning), _,
      _⟩) =>
      (Statement.planned (Change.insertion Resolver.standard { c.scope with common }
        c.foreignKeys conflict table columns source upsert returning)).toOption
  | _ => none

/-- The table that an insert is about, and the numbers of the rows that it puts in, in order, when
it runs on a connection; none if it is refused. -/
def inserted (c : Connection) (sql : String) (values : List Stored) :
    Option (Table × List Int64) :=
  (c.insertion? sql).bind fun i =>
    let start : Progress := { database := c.database, lastId := c.lastId }
    (((i.run (c.env values)).run).run start).1.toOption.map (i.table, ·)

variable {c : Connection} {sql : String} {s : Statement}

theorem prepare_insert (inserts : Sql.inserts sql = true) (prepared : c.prepare sql = .ok s) :
    ∃ i columns, c.insertion? sql = some i ∧
      s.action = .change ⟨columns, fun env => do let _ ← i.run env⟩ := by
  unfold Sql.inserts at inserts
  unfold prepare at prepared
  unfold insertion?
  split at inserts
  · rename_i parsed
    rw [parsed] at prepared
    obtain ⟨⟨columns, action⟩, resolved, same⟩ := bind_result (mapError_eq_ok.1 prepared)
    cases same
    obtain ⟨plan, planned, same⟩ := bind_result resolved
    cases same
    unfold Change.resolve Change.insertPlan at planned
    obtain ⟨i, found, rfl⟩ := Statement.planned_bind_pure planned
    exact ⟨i, _, by rw [found]; rfl, rfl⟩
  · cases inserts

/-- A run of an insert that was not refused: the rows have been put in, and the number of the last
one is kept. -/
theorem runChange_insert {i : Change.Insertion} {columns : List ResultInfo} {values : List Stored}
    {found : Option (List Stored)}
    (looked :
      ((c.runChange ⟨columns, fun env => do let _ ← i.run env⟩ values).rows.first?.outcome).1 =
        .ok found) :
    ∃ numbers p,
      Runs (i.run (c.env values)) { database := c.database, lastId := c.lastId } numbers p ∧
      (c.runChange ⟨columns, fun env => do let _ ← i.run env⟩ values).connection.database =
        p.database ∧
      (c.runChange ⟨columns, fun env => do let _ ← i.run env⟩ values).connection.lastId =
        p.lastId := by
  unfold runChange at looked ⊢
  simp only [run_bind] at looked ⊢
  rcases ran : ((i.run (c.env values)).run).run { database := c.database, lastId := c.lastId } with
    ⟨result, p⟩
  rw [ran] at looked
  cases result with
  | error r =>
      have none := Run.failure_of_first? looked
      cases none
  | ok numbers => exact ⟨numbers, p, ran, rfl, rfl⟩

end Connection

namespace DataContext

/-- What is executed to its end has yielded no row. -/
theorem outcome_execute {s : BoundStatement} {c : DataContext} {u : Unit}
    (executed : outcome (execute s) c = .ok u) :
    ((c.connection.run s.statement s.values).rows.first?.outcome).1 = .ok none := by
  unfold outcome execute at executed
  rw [run_tryRun] at executed
  dsimp only at executed
  cases looked : (c.connection.run s.statement s.values).rows.first?.outcome.1 with
  | error m =>
      rw [looked] at executed
      cases executed
  | ok found =>
      rw [looked] at executed
      cases found with
      | none => rfl
      | some row => cases executed

theorem executeInsertKey_eq_ok {c : DataContext} {query : QueryPiece} {k : Int64}
    (answered : outcome (executeInsertKey query) c = .ok k) :
    ∃ b, c.prepared query = .ok b ∧
      ((c.connection.run b.statement b.values).rows.first?.outcome).1 = .ok none ∧
      (left (executeInsertKey query) c).connection.contents =
        (c.connection.run b.statement b.values).connection.contents ∧
      (c.connection.run b.statement b.values).connection.lastId = k := by
  unfold outcome at answered
  unfold left
  unfold executeInsertKey at answered ⊢
  rw [run_bind, run_withStatement] at answered ⊢
  cases prepared : c.prepared query with
  | error e =>
      rw [prepared] at answered
      cases answered
  | ok b =>
      rw [prepared] at answered
      dsimp only at answered ⊢
      cases executed : outcome (execute b) { c with tracker := c.tracker.track b.statement } with
      | error e =>
          rw [executed] at answered
          cases answered
      | ok u =>
          rw [executed] at answered
          exact ⟨b, rfl, outcome_execute executed, rfl, Except.ok.inj answered⟩

end DataContext

end SqlUnits
