import SqlUnits.Access.Context
import SqlUnits.Proofs.Check.Visit
/-!
What the operations on a context come down to: each prepares one statement, binds it and runs it,
and whatever comes of that, the statement is released.
-/

namespace SqlUnits

theorem StatementTracker.release_track (tracker : StatementTracker) (s : Statement) :
    (tracker.track s).release tracker.openCount = tracker := by
  obtain ⟨statements⟩ := tracker
  simp [track, release, openCount, List.eraseIdx_append_of_length_le]

namespace DataContext

/-- How an operation ends on a context. -/
def outcome (operation : Access α) (c : DataContext) : Except AccessError α :=
  ((operation.run).run c).1

/-- The context that an operation leaves, however it ends. -/
def left (operation : Access α) (c : DataContext) : DataContext :=
  ((operation.run).run c).2

theorem run_eq (operation : Access α) (c : DataContext) :
    (operation.run).run c = (outcome operation c, left operation c) :=
  rfl

theorem run_lift (result : Except AccessError α) (c : DataContext) :
    ((lift result).run).run c = (result, c) :=
  rfl

theorem run_attempt (operation : Access α) (c : DataContext) :
    ((attempt operation).run).run c = (.ok (outcome operation c), left operation c) :=
  rfl

theorem run_modify (f : DataContext → DataContext) (c : DataContext) :
    ((modify f : Access PUnit).run).run c = (.ok ⟨⟩, f c) :=
  rfl

/-- What follows an operation may depend on its result alone. -/
theorem outcome_bind {x : Access α} {k : α → Access β} {f : α → Except AccessError β}
    (steady : ∀ a c, outcome (k a) c = f a) (c : DataContext) :
    outcome (x >>= k) c = outcome x c >>= f := by
  unfold outcome at steady ⊢
  rw [run_bind]
  rcases (x.run).run c with ⟨result, t⟩
  cases result with
  | error e => rfl
  | ok a => exact steady a t

theorem outcome_map (f : α → β) (x : Access α) (c : DataContext) :
    outcome (f <$> x) c = f <$> outcome x c := by
  rw [map_eq_pure_bind, map_eq_pure_bind]
  exact @outcome_bind _ _ x (fun a => pure (f a)) (fun a => .ok (f a)) (fun _ _ => rfl) c

theorem outcome_mapM (f : α → Except AccessError β) (as : List α) (c : DataContext) :
    outcome (as.mapM fun a => lift (f a)) c = as.mapM f := by
  induction as with
  | nil => rfl
  | cons a as ih =>
      rw [List.mapM_cons, List.mapM_cons]
      cases f a with
      | error e => rfl
      | ok b =>
          change outcome ((b :: ·) <$> as.mapM fun a => lift (f a)) c = (b :: ·) <$> as.mapM f
          rw [outcome_map, ih]

/-- The statement of a query, with values for its placeholders. -/
def prepared (c : DataContext) (query : QueryPiece) : Except AccessError BoundStatement := do
  let s ← (c.connection.prepare query.sql).mapError .database
  bound c.registry s query.params

theorem bound_statement {registry : Registry} {s : Statement} {params : List Parameter}
    {b : BoundStatement} (found : bound registry s params = .ok b) : b.statement = s := by
  unfold bound at found
  split at found
  · cases found
  · obtain ⟨values, _, same⟩ := bind_result found
    cases same
    rfl

theorem run_withStatement (query : QueryPiece) (use : BoundStatement → Access α)
    (c : DataContext) :
    ((withStatement query use).run).run c =
      match c.prepared query with
      | .error e => (.error e, c)
      | .ok b =>
          let inside := { c with tracker := c.tracker.track b.statement }
          (outcome (use b) inside,
            { left (use b) inside with
              tracker := (left (use b) inside).tracker.release c.tracker.openCount }) := by
  unfold withStatement prepared
  simp only [run_bind, run_get, run_lift]
  cases c.connection.prepare query.sql with
  | error e => rfl
  | ok s =>
      simp only [mapError_ok, run_modify]
      cases found : bound c.registry s query.params with
      | error e =>
          have same :
              { c with tracker := (c.tracker.track s).release c.tracker.openCount } = c := by
            rw [StatementTracker.release_track]
          rw [show (Except.ok s >>= fun s => bound c.registry s query.params) = .error e from found]
          exact congrArg (Except.error e, ·) same
      | ok b =>
          obtain rfl := bound_statement found
          rw [show (Except.ok b.statement >>= fun s => bound c.registry s query.params) = .ok b
            from found]
          rfl

theorem outcome_withStatement (query : QueryPiece) (use : BoundStatement → Access α)
    (c : DataContext) :
    outcome (withStatement query use) c = c.prepared query >>= fun b =>
      outcome (use b) { c with tracker := c.tracker.track b.statement } := by
  unfold outcome
  rw [run_withStatement]
  cases c.prepared query <;> rfl

theorem run_tryRun (s : BoundStatement)
    (read : Run (List Stored) → Except AccessError α × List FunctionCall) (c : DataContext) :
    ((tryRun s read).run).run c =
      let execution := c.connection.run s.statement s.values
      ((read execution.rows).1,
        { c with connection := execution.connection.logged (read execution.rows).2 }) :=
  rfl

theorem run_factory (row : RowType α) (isMeta : Bool) (c : DataContext) :
    ((factory row isMeta).run).run c =
      ((c.factories.request c.registry row isMeta).1,
        { c with factories := (c.factories.request c.registry row isMeta).2 }) :=
  rfl

/-- Whether a row type takes all columns of a statement, if that is asked. -/
def columnsChecked (asked : Bool) (factory : RowFactory) (s : Statement) :
    Except AccessError Unit :=
  if asked then factory.checkColumns s.columns.length else .ok ()

theorem run_checkRowColumns (factory : RowFactory) (s : Statement) (c : DataContext) :
    ((checkRowColumns factory s).run).run c = (columnsChecked c.checkRowTypes factory s, c) := by
  unfold checkRowColumns columnsChecked
  rw [run_bind, run_get]
  dsimp only
  cases c.checkRowTypes <;> rfl

end DataContext

end SqlUnits
