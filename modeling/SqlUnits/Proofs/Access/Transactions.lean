import SqlUnits.Proofs.Access.Statement
import SqlUnits.Proofs.Database.Transaction
/-!
Transactions are atomic, however deep they stand in each other. The savepoint of a transaction is
the innermost one when it is closed, as the operations inside leave the open savepoints as they
are, and the transactions inside close their own.
-/

namespace SqlUnits

namespace DataContext

/-! The texts that open and close a transaction. -/

theorem savepointName_isName (depth : Nat) :
    Sql.Command.IsName (savepointName depth).toList := by
  have written : (savepointName depth).toList = "sqlprobe_".toList ++ (toString depth).toList :=
    String.toList_append
  rw [written]
  refine ⟨⟨fun _ => rfl, fun _ => rfl, ?chars⟩, ?free⟩
  case chars =>
    have first : ∀ c ∈ "sqlprobe_".toList, Sql.Token.isNameChar c := List.all_eq_true.1 rfl
    intro c member
    rcases List.mem_append.1 member with inside | digit
    · exact first c inside
    · simp [Sql.Token.isNameChar, (Text.number_isIdent depth).2 c digit]
  case free =>
    have without : ∀ word ∈ "SAVEPOINT" :: Sql.Parser.reserved, '_' ∉ word.toList := by decide
    refine fun inside => without _ inside ?_
    rw [Text.upperString, String.toList_ofList, String.toList_ofList]
    exact List.mem_map.2 ⟨'_', by simp, rfl⟩

/-- The text that closes a transaction which ends with a result. -/
def closing (depth : Nat) : Except AccessError α → String
  | .ok _ => "RELEASE " ++ savepointName depth
  | .error _ => "ROLLBACK TO " ++ savepointName depth ++ "; RELEASE " ++ savepointName depth

section

variable {connection : Connection} {depth : Nat} {before : Database} {marks : List Mark}
  {result : Except AccessError α}

/-- With its savepoint still open, a transaction closes, and takes back what it did if it failed. -/
theorem executeBatch_closing
    (opened : connection.contents.marks = ⟨some (savepointName depth), before⟩ :: marks) :
    connection.executeBatch (closing depth result) =
      (.ok (), { connection with
        contents := ⟨match result with
          | .ok _ => connection.database
          | .error _ => before, marks⟩ }) := by
  have contents : connection.contents =
      ⟨connection.database, ⟨some (savepointName depth), before⟩ :: marks⟩ :=
    congrArg (Contents.mk connection.database) opened
  cases result with
  | ok a =>
      simp only [closing]
      rw [Connection.executeBatch_release (savepointName_isName _),
        Connection.transact, contents, Contents.step, Contents.release_named]
  | error e =>
      simp only [closing]
      rw [Connection.executeBatch_rollbackTo (savepointName_isName _),
        Connection.transact, contents, Contents.step, Contents.rollbackTo_named]
      simp only
      rw [Connection.transact, Contents.step, Contents.release_named]

/-- Without any open savepoint a transaction cannot close. -/
theorem executeBatch_closing_lost (lost : connection.contents.marks = []) :
    connection.executeBatch (closing depth result) =
      (.error (.failure ("no such savepoint: " ++ savepointName depth)), connection) := by
  have none : Contents.marksFrom (savepointName depth) connection.contents.marks = [] := by
    rw [lost]
    rfl
  cases result with
  | ok a =>
      simp only [closing]
      rw [Connection.executeBatch_release (savepointName_isName _),
        Connection.transact, Contents.step, Contents.release, none]
  | error e =>
      simp only [closing]
      rw [Connection.executeBatch_rollbackTo (savepointName_isName _),
        Connection.transact, Contents.step, Contents.rollbackTo, none]

end

/-- A context inside a transaction that begins. -/
def entered (c : DataContext) : DataContext :=
  { c with
    savepoints := c.savepoints + 1
    connection := { c.connection with
      contents := c.connection.contents.savepoint (savepointName c.savepoints) } }

theorem run_executeBatch (sql : String) (c : DataContext) :
    ((executeBatch sql).run).run c =
      ((c.connection.executeBatch sql).1.mapError .database,
        { c with connection := (c.connection.executeBatch sql).2 }) :=
  rfl

theorem run_enterTransaction (c : DataContext) :
    (enterTransaction.run).run c = (.ok c.savepoints, c.entered) := by
  unfold enterTransaction
  rw [run_bind, run_get]
  simp only
  rw [run_bind, run_executeBatch, Connection.executeBatch_savepoint (savepointName_isName _)]
  rfl

/-- How a transaction ends: as its body, unless what was done cannot be released. -/
def concluded (result : Except AccessError α) (closed : Except DriverError Unit) :
    Except AccessError α :=
  match result with
  | .ok a => (fun _ => a) <$> closed.mapError .database
  | .error e => .error e

theorem concluded_closed (result : Except AccessError α) : concluded result (.ok ()) = result := by
  cases result <;> rfl

theorem run_leaveTransaction (depth : Nat) (result : Except AccessError α) (c : DataContext) :
    ((leaveTransaction depth result).run).run c =
      (concluded result (c.connection.executeBatch (closing depth result)).1,
        { c with
          savepoints := depth
          connection := (c.connection.executeBatch (closing depth result)).2 }) := by
  unfold leaveTransaction
  rw [run_bind, run_modify]
  cases result with
  | ok a =>
      simp only
      rw [run_bind, run_executeBatch]
      simp only [closing, concluded]
      cases (c.connection.executeBatch ("RELEASE " ++ savepointName depth)).1 <;> rfl
  | error e =>
      simp only
      rw [run_bind, run_attempt]
      exact congrArg (Except.error e, ·) (congrArg Prod.snd (run_executeBatch _ _))

theorem run_transaction (body : Access α) (c : DataContext) :
    ((transaction body).run).run c =
      ((leaveTransaction c.savepoints (outcome body c.entered)).run).run (left body c.entered) := by
  unfold transaction
  rw [run_bind, run_enterTransaction]
  simp only
  rw [run_bind, run_attempt]

/-! What an operation leaves alone, if only transactions open and close transactions. -/

/-- Between two states of a context all transactions are closed that were opened, and none that
was open before, unless all of them were ended at once. -/
structure Remains (c d : DataContext) : Prop where
  savepoints : d.savepoints = c.savepoints
  dialect : d.dialect = c.dialect
  marks : d.connection.contents.marks = c.connection.contents.marks ∨
    d.connection.contents.marks = []

theorem Remains.refl (c : DataContext) : Remains c c :=
  ⟨rfl, rfl, .inl rfl⟩

theorem Remains.trans {c d e : DataContext} (first : Remains c d) (second : Remains d e) :
    Remains c e where
  savepoints := second.savepoints.trans first.savepoints
  dialect := second.dialect.trans first.dialect
  marks := second.marks.elim (fun same => first.marks.imp same.trans same.trans) .inr

/-- Whatever comes of an operation on contexts of a dialect, the transactions remain. -/
def Steady (dialect : Dialect) (operation : Access α) : Prop :=
  ∀ c, c.dialect = dialect → Remains c (left operation c)

namespace Steady

variable {dialect : Dialect} {query : QueryPiece}

theorem lift (result : Except AccessError α) : Steady dialect (lift result) :=
  fun c _ => .refl c

theorem pure (a : α) : Steady dialect (pure a : Access α) :=
  fun c _ => .refl c

theorem throw (e : AccessError) : Steady dialect (throw e : Access α) :=
  fun c _ => .refl c

theorem bind {x : Access α} {k : α → Access β} (first : Steady dialect x)
    (second : ∀ a, Steady dialect (k a)) : Steady dialect (x >>= k) := by
  intro c same
  have remains := first c same
  unfold left at remains ⊢
  rw [run_bind]
  cases ran : (x.run).run c with
  | mk result d =>
      rw [ran] at remains
      cases result with
      | error e => exact remains
      | ok a => exact remains.trans (second a d (remains.dialect.trans same))

/-- An operation that looks at its context first. -/
theorem look {k : DataContext → Access α}
    (after : ∀ c, c.dialect = dialect → Steady dialect (k c)) : Steady dialect (get >>= k) :=
  fun c same => after c same c same

/-- An operation that needs a result. -/
theorem given {result : Except AccessError α} {k : α → Access β}
    (after : ∀ a, result = .ok a → Steady dialect (k a)) :
    Steady dialect (DataContext.lift result >>= k) := by
  cases result with
  | error e => exact fun c _ => .refl c
  | ok a => exact after a rfl

theorem map {x : Access α} (f : α → β) (steady : Steady dialect x) : Steady dialect (f <$> x) := by
  rw [map_eq_pure_bind]
  exact steady.bind fun a => .pure (f a)

theorem mapM {f : α → Access β} (each : ∀ a, Steady dialect (f a)) :
    ∀ as : List α, Steady dialect (as.mapM f)
  | [] => by
      rw [List.mapM_nil]
      exact .pure []
  | a :: as => by
      rw [List.mapM_cons]
      exact (each a).bind fun b => (mapM each as).bind fun bs => .pure (b :: bs)

theorem attempt {x : Access α} (steady : Steady dialect x) : Steady dialect (attempt x) :=
  steady

theorem factory (row : RowType α) (isMeta : Bool) : Steady dialect (factory row isMeta) := by
  intro c _
  rw [left, run_factory]
  exact ⟨rfl, rfl, .inl rfl⟩

theorem checkRowColumns (factory : RowFactory) (s : Statement) :
    Steady dialect (checkRowColumns factory s) := by
  intro c _
  rw [left, run_checkRowColumns]
  exact .refl c

/-- A statement that is none about transactions, where it is run. -/
theorem runStatement {s : BoundStatement} (plain : ∀ step, s.statement.action ≠ .transaction step)
    (read : Run (List Stored) → α × List FunctionCall) : Steady dialect (runStatement s read) :=
  fun c _ => ⟨rfl, rfl, c.connection.run_marks s.values plain⟩

theorem tryRun {s : BoundStatement} (plain : ∀ step, s.statement.action ≠ .transaction step)
    (read : Run (List Stored) → Except AccessError α × List FunctionCall) :
    Steady dialect (tryRun s read) :=
  (runStatement plain read).bind fun result => .lift result

theorem withStatement {use : BoundStatement → Access α}
    (free : Sql.controlsTransaction query.sql = false)
    (uses : ∀ b : BoundStatement, (∀ step, b.statement.action ≠ .transaction step) →
      Steady dialect (use b)) : Steady dialect (withStatement query use) := by
  intro c same
  rw [left, run_withStatement]
  cases found : c.prepared query with
  | error e => exact .refl c
  | ok b =>
      obtain ⟨s, prepared, bound⟩ := bind_result found
      have plain := Connection.prepare_plain (mapError_eq_ok.1 prepared) free
      rw [← bound_statement bound] at plain
      have remains := uses b plain { c with tracker := c.tracker.track b.statement } same
      exact ⟨remains.savepoints, remains.dialect, remains.marks⟩

theorem fetchRows (row : RowType α) (limit : Option Nat)
    (free : Sql.controlsTransaction query.sql = false) :
    Steady dialect (fetchRows row query limit) :=
  (factory row false).bind fun factory => .withStatement free fun _ plain =>
    (checkRowColumns factory _).bind fun _ => .tryRun plain _

theorem fetchValues (type : ValueType) (limit : Option Nat)
    (free : Sql.controlsTransaction query.sql = false) :
    Steady dialect (fetchValues type query limit) := by
  refine look fun _ _ => (lift _).bind fun mapper => .withStatement free fun b plain => ?_
  dsimp only
  split
  · exact (throw _).bind fun _ => .tryRun plain _
  · exact tryRun plain _

theorem atMostOne (fetched : Fetched α) : Steady dialect (atMostOne fetched) := by
  unfold DataContext.atMostOne
  split
  · exact .throw _
  · exact .pure _

theorem exactlyOne (fetched : Fetched α) : Steady dialect (exactlyOne fetched) := by
  refine (atMostOne fetched).bind fun found => ?_
  cases found with
  | none => exact .throw _
  | some a => exact .pure a

theorem execute {s : BoundStatement} (plain : ∀ step, s.statement.action ≠ .transaction step) :
    Steady dialect (execute s) :=
  tryRun plain _

theorem metaRow (row : RowType α) (free : Sql.controlsTransaction query.sql = false) :
    Steady dialect (metaRow row query) := by
  refine (factory row true).bind fun factory => .withStatement free fun b plain =>
    (checkRowColumns factory _).bind fun _ => ?_
  intro c _
  have marks : (c.connection.describe query.sql b.statement b.values).2.contents.marks =
      c.connection.contents.marks ∨
      (c.connection.describe query.sql b.statement b.values).2.contents.marks = [] :=
    c.connection.run_marks b.values plain
  rw [left, run_bind, run_get]
  dsimp only
  rw [run_bind, run_set]
  dsimp only
  rw [run_bind, run_lift]
  cases (c.connection.describe query.sql b.statement b.values).1 with
  | error e => exact ⟨rfl, rfl, marks⟩
  | ok columns => exact ⟨rfl, rfl, marks⟩

theorem executeCall (free : ∀ sql, dialect.callSql query.sql = .ok sql →
    Sql.controlsTransaction sql = false) : Steady dialect (executeCall query) := by
  refine look fun c same => ?_
  subst same
  exact given fun sql translated => .withStatement (free sql translated) fun b plain =>
    (tryRun plain _).bind fun _ => .pure ()

theorem nextId {sequence : String}
    (free : Sql.controlsTransaction (dialect.nextIdSql sequence) = false) :
    Steady dialect (nextId sequence) := by
  refine look fun c same => ?_
  subst same
  exact .withStatement free fun b plain => .tryRun plain _

end Steady

/-- What can be done in a transaction: operations on the context, without SQL that opens or closes
transactions, and transactions. Any of them may be caught when it fails, and what is done next may
depend on what came of it. -/
inductive Orderly (dialect : Dialect) : {α : Type} → Access α → Prop
  | pure (a : α) : Orderly dialect (pure a : Access α)
  | throw (e : AccessError) : Orderly dialect (throw e : Access α)
  | look (f : DataContext → α) : Orderly dialect (f <$> (get : Access DataContext))
  | bind {x : Access α} {k : α → Access β} :
      Orderly dialect x → (∀ a, Orderly dialect (k a)) → Orderly dialect (x >>= k)
  | attempt {x : Access α} : Orderly dialect x → Orderly dialect (attempt x)
  | transaction {body : Access α} : Orderly dialect body → Orderly dialect (transaction body)
  | singleRow (row : RowType α) {query : QueryPiece} :
      Sql.controlsTransaction query.sql = false → Orderly dialect (singleRow row query)
  | optionalRow (row : RowType α) {query : QueryPiece} :
      Sql.controlsTransaction query.sql = false → Orderly dialect (optionalRow row query)
  | multiRow (row : RowType α) {query : QueryPiece} :
      Sql.controlsTransaction query.sql = false → Orderly dialect (multiRow row query)
  | forEachRow (row : RowType α) {query : QueryPiece}
      (each : α → σ → Except AccessError Unit × σ) (start : σ) :
      Sql.controlsTransaction query.sql = false → Orderly dialect (forEachRow row query each start)
  | metaRow (row : RowType α) {query : QueryPiece} :
      Sql.controlsTransaction query.sql = false → Orderly dialect (metaRow row query)
  | singleValue (type : ValueType) (target : TargetType) {query : QueryPiece} :
      Sql.controlsTransaction query.sql = false → Orderly dialect (singleValue type target query)
  | optionalValue (type : ValueType) (target : TargetType) {query : QueryPiece} :
      Sql.controlsTransaction query.sql = false → Orderly dialect (optionalValue type target query)
  | columnValues (type : ValueType) (target : TargetType) {query : QueryPiece} :
      Sql.controlsTransaction query.sql = false → Orderly dialect (columnValues type target query)
  | executeUpdate {query : QueryPiece} :
      Sql.controlsTransaction query.sql = false → Orderly dialect (executeUpdate query)
  | executeInsertKey {query : QueryPiece} :
      Sql.controlsTransaction query.sql = false → Orderly dialect (executeInsertKey query)
  | executeCall {query : QueryPiece} :
      (∀ sql, dialect.callSql query.sql = .ok sql → Sql.controlsTransaction sql = false) →
      Orderly dialect (executeCall query)
  | callProcedure {name : String} {params : List Parameter} :
      (∀ sql, dialect.callSql (Query.callForm name params.length) = .ok sql →
        Sql.controlsTransaction sql = false) →
      Orderly dialect (callProcedure name params)
  | nextId {sequence : String} :
      Sql.controlsTransaction (dialect.nextIdSql sequence) = false →
      Orderly dialect (nextId sequence)

/-- A transaction closes itself, unless there is nothing left to close. -/
theorem Steady.transaction {dialect : Dialect} {body : Access α} (steady : Steady dialect body) :
    Steady dialect (transaction body) := by
  intro c same
  have remains := steady c.entered same
  rw [left, run_transaction, run_leaveTransaction]
  refine ⟨rfl, remains.dialect, ?_⟩
  rcases remains.marks with opened | lost
  · rw [executeBatch_closing opened]
    exact .inl rfl
  · rw [executeBatch_closing_lost lost]
    exact .inr lost

theorem Orderly.steady {dialect : Dialect} {operation : Access α}
    (orderly : Orderly dialect operation) : Steady dialect operation := by
  induction orderly with
  | pure a => exact .pure a
  | throw e => exact .throw e
  | look f => exact fun c _ => .refl c
  | bind _ _ first second => exact first.bind second
  | attempt _ steady => exact steady.attempt
  | transaction _ steady => exact steady.transaction
  | singleRow row free => exact (Steady.fetchRows row _ free).bind .exactlyOne
  | optionalRow row free => exact (Steady.fetchRows row _ free).bind .atMostOne
  | multiRow row free => exact (Steady.fetchRows row _ free).map _
  | forEachRow row each start free =>
      exact (Steady.factory row false).bind fun factory => .withStatement free fun _ plain =>
        (Steady.checkRowColumns factory _).bind fun _ => .runStatement plain _
  | metaRow row free => exact .metaRow row free
  | singleValue type target free =>
      exact (Steady.fetchValues type _ free).bind fun fetched =>
        (Steady.exactlyOne fetched).bind fun v => .lift _
  | optionalValue type target free =>
      refine (Steady.fetchValues type _ free).bind fun fetched =>
        (Steady.atMostOne fetched).bind fun found => ?_
      cases found with
      | none => exact .pure none
      | some v => exact (Steady.lift _).map some
  | columnValues type target free =>
      exact (Steady.fetchValues type _ free).bind fun fetched => .mapM (fun v => .lift _) _
  | executeUpdate free =>
      exact (Steady.withStatement free fun _ plain => .execute plain).bind fun _ =>
        .look fun c _ => .pure _
  | executeInsertKey free =>
      exact (Steady.withStatement free fun _ plain => .execute plain).bind fun _ =>
        .look fun c _ => .pure _
  | executeCall free => exact .executeCall free
  | callProcedure free => exact Steady.executeCall free
  | nextId free => exact .nextId free

/-- What a call is translated to opens or closes a transaction only if the text that was written
does. -/
theorem sqlite_callSql_free {sql text : String} (free : Sql.controlsTransaction sql = false)
    (translated : Dialect.sqlite.callSql sql = .ok text) :
    Sql.controlsTransaction text = false := by
  simp only [Dialect.sqlite] at translated
  split at translated
  · cases translated
    exact free
  · split at translated
    · cases translated
    · cases translated
      rw [String.append_assoc, String.append_assoc, String.append_assoc]
      exact Sql.controlsTransaction_select _

theorem sqlite_nextIdSql_free (sequence : String) :
    Sql.controlsTransaction (Dialect.sqlite.nextIdSql sequence) = false := by
  simp only [Dialect.sqlite]
  rw [String.append_assoc]
  exact Sql.controlsTransaction_update _

theorem orderly_executeCall {query : QueryPiece}
    (free : Sql.controlsTransaction query.sql = false) : Orderly .sqlite (executeCall query) :=
  Orderly.executeCall fun _ translated => sqlite_callSql_free free translated

theorem orderly_nextId (sequence : String) : Orderly .sqlite (nextId sequence) :=
  Orderly.nextId (sqlite_nextIdSql_free sequence)

/-- The commands that close a transaction do not fail if its body is still inside of one. -/
theorem closes_iff {c : DataContext} {body : Access α} (orderly : Orderly c.dialect body) :
    ((left body c.entered).connection.executeBatch
        (closing c.savepoints (outcome body c.entered))).1 = .ok () ↔
      (left body c.entered).connection.autocommit = false := by
  unfold Connection.autocommit Contents.autocommit
  rcases (orderly.steady c.entered rfl).marks with opened | lost
  · rw [executeBatch_closing opened, opened]
    exact iff_of_true rfl rfl
  · rw [executeBatch_closing_lost lost, lost]
    exact iff_of_false nofun nofun

end DataContext

end SqlUnits
