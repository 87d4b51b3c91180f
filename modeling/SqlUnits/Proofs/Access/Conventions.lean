import SqlUnits.Proofs.Access.Statement
import SqlUnits.Proofs.Check.Binding
import SqlUnits.Proofs.Check.Passing
/-!
The conventions under which the result of a query is read. All of them map the rows of one run, in
order; they differ in how many rows they go on for, and in what they make of those that they got.
-/

namespace SqlUnits

/-- A callback that is given items, one after the other. -/
def given (each : α → σ → Except AccessError Unit × σ) (items : List α) :
    ExceptT AccessError (StateM σ) Unit :=
  items.forM fun a => ExceptT.mk (each a)

theorem runs_given_cons {each : α → σ → Except AccessError Unit × σ} {a : α} {items : List α}
    {start s : σ} :
    Runs (given each (a :: items)) start ⟨⟩ s ↔
      ∃ next, each a start = (.ok ⟨⟩, next) ∧ Runs (given each items) next ⟨⟩ s := by
  unfold given
  rw [List.forM_eq_forM, List.forM_cons, runs_bind]
  constructor
  · rintro ⟨_, next, first, rest⟩
    exact ⟨next, first, rest⟩
  · rintro ⟨next, first, rest⟩
    exact ⟨⟨⟩, next, first, rest⟩

theorem runs_given_of_never {each : α → σ → Except AccessError Unit × σ}
    (never : ∀ a s, (each a s).1 = .ok ()) (items : List α) (start : σ) :
    Runs (given each items) start ⟨⟩ (items.foldl (fun s a => (each a s).2) start) := by
  induction items generalizing start with
  | nil => rfl
  | cons a items ih =>
      refine runs_given_cons.2 ⟨(each a start).2, Prod.ext (never a start) rfl, ?_⟩
      exact ih (each a start).2

namespace Run

section

variable {map : β → Except AccessError α} {failure : Option String} {events : List (Event β)}
  {limit : Option Nat} {b : β} {fetched : Fetched α}

/-- A row within the limit is mapped, and then come the others. -/
theorem collectEvents_item (within : limit ≠ some 0) :
    (collectEvents map failure limit (.item b :: events)).1 = .ok fetched ↔
      ∃ a others, map b = .ok a ∧
        (collectEvents map failure (limit.map (· - 1)) events).1 = .ok others ∧
        fetched = ⟨a :: others.rows, others.more⟩ := by
  rw [collectEvents]
  on_goal 2 => exact within
  cases map b with
  | error e => simp
  | ok a =>
      rcases collectEvents map failure (limit.map (· - 1)) events with ⟨result, calls⟩
      cases result with
      | error e => simp [Except.map]
      | ok others => simp [Except.map, eq_comm]

theorem failureOr_eq_ok {a b : α} : failureOr failure a = .ok b ↔ failure = none ∧ a = b := by
  cases failure <;> simp [failureOr]

/-- What is read of a run up to a limit, if all of it can be read. -/
theorem collectEvents_limited (n : Nat)
    (whole : (collectEvents map failure none events).1 = .ok fetched) :
    (collectEvents map failure (some n) events).1 =
      .ok ⟨fetched.rows.take n, n < fetched.rows.length⟩ := by
  induction events generalizing n fetched with
  | nil =>
      obtain ⟨rfl, rfl⟩ := failureOr_eq_ok.1 whole
      simp [collectEvents, failureOr]
  | cons event events ih =>
      cases event with
      | called call => cases n <;> exact ih _ whole
      | item b =>
          obtain ⟨a, others, mapped, rest, rfl⟩ := (collectEvents_item (by simp)).1 whole
          cases n with
          | zero => simp [collectEvents]
          | succ n =>
              refine (collectEvents_item (by simp)).2 ⟨a, _, mapped, ih n rest, ?_⟩
              simp

/-- If a limit was not reached, all of the run was read. -/
theorem collectEvents_unlimited {rows : List α} (n : Nat)
    (read : (collectEvents map failure (some n) events).1 = .ok ⟨rows, false⟩) :
    (collectEvents map failure none events).1 = .ok ⟨rows, false⟩ := by
  induction events generalizing n rows with
  | nil => exact read
  | cons event events ih =>
      cases event with
      | called call => cases n <;> exact ih _ read
      | item b =>
          cases n with
          | zero => simp [collectEvents] at read
          | succ n =>
              obtain ⟨a, ⟨others, more⟩, mapped, rest, same⟩ :=
                (collectEvents_item (by simp)).1 read
              cases same
              exact (collectEvents_item (by simp)).2 ⟨a, _, mapped, ih n rest, rfl⟩

variable {each : α → σ → Except AccessError Unit × σ} {start s s' : σ}

/-- A callback that takes all rows of a run. -/
theorem visitEvents_whole (count : Nat)
    (whole : (collectEvents map failure none events).1 = .ok fetched)
    (takes : Runs (given each fetched.rows) start ⟨⟩ s) :
    (visitEvents map each failure start count events).1 =
      ⟨s, .ok (count + fetched.rows.length)⟩ := by
  induction events generalizing start count fetched with
  | nil =>
      obtain ⟨rfl, rfl⟩ := failureOr_eq_ok.1 whole
      obtain ⟨_, rfl⟩ := runs_pure.1 takes
      rfl
  | cons event events ih =>
      cases event with
      | called call => exact ih count whole takes
      | item b =>
          obtain ⟨a, others, mapped, rest, rfl⟩ := (collectEvents_item (by simp)).1 whole
          obtain ⟨next, first, takes⟩ := runs_given_cons.1 takes
          have later := ih (count + 1) rest takes
          simp only [visitEvents, mapped, first, later, List.length_cons]
          rw [Nat.add_assoc, Nat.add_comm 1]

/-- A callback that fails on a row, once it has taken those before it. -/
theorem visitEvents_stopped {seen unseen : List α} {a : α} {e : AccessError} (count : Nat)
    (whole : (collectEvents map failure none events).1 = .ok fetched)
    (rows : fetched.rows = seen ++ a :: unseen) (takes : Runs (given each seen) start ⟨⟩ s)
    (fails : each a s = (.error e, s')) :
    (visitEvents map each failure start count events).1 = ⟨s', .error e⟩ := by
  induction events generalizing start count fetched seen with
  | nil =>
      obtain ⟨_, rfl⟩ := failureOr_eq_ok.1 whole
      simp at rows
  | cons event events ih =>
      cases event with
      | called call => exact ih count whole rows takes
      | item b =>
          obtain ⟨first, others, mapped, rest, rfl⟩ := (collectEvents_item (by simp)).1 whole
          cases seen with
          | nil =>
              obtain ⟨_, rfl⟩ := runs_pure.1 takes
              obtain ⟨rfl, _⟩ := List.cons.inj rows
              simp only [visitEvents, mapped, fails]
          | cons x seen =>
              obtain ⟨rfl, behind⟩ := List.cons.inj rows
              obtain ⟨next, taken, takes⟩ := runs_given_cons.1 takes
              have later := ih (count + 1) rest behind takes
              simp only [visitEvents, mapped, taken, later]

end

end Run

namespace DataContext

/-- What a convention reads from: the rows of a run, and what each of them is mapped to. -/
structure Stream (α : Type) where
  run : Run (List Stored)
  map : List Stored → Except AccessError α

/-- The rows of a query, to be mapped to a row type. -/
def rowStream (c : DataContext) (row : RowType α) (query : QueryPiece) :
    Except AccessError (Stream α) := do
  let factory ← (c.factories.request c.registry row false).1
  let b ← c.prepared query
  columnsChecked c.checkRowTypes factory b.statement
  pure ⟨(c.connection.run b.statement b.values).rows, factory.fetch row⟩

/-- The rows of a query, to be mapped to one value each. -/
def valueStream (c : DataContext) (type : ValueType) (query : QueryPiece) :
    Except AccessError (Stream Value) := do
  let mapper ← c.registry.resolve type
  let b ← c.prepared query
  let columns := b.statement.columns.length
  if columns ≠ mapper.columns then throw (.cardinality (.tooManyColumns columns type))
  else pure ⟨(c.connection.run b.statement b.values).rows, fun values => mapper.read values 0⟩

section

variable (c : DataContext) (row : RowType α) (query : QueryPiece)

/-- What is read once the statement of a query is there, is read from its stream. -/
theorem outcome_readRows {use : RowFactory → BoundStatement → Access β}
    {read : Stream α → Except AccessError β}
    (reads : ∀ factory b c, outcome (use factory b) c =
      read ⟨(c.connection.run b.statement b.values).rows, factory.fetch row⟩) :
    outcome (do
        let factory ← factory row false
        withStatement query fun s => do
          checkRowColumns factory s.statement
          use factory s) c =
      c.rowStream row query >>= read := by
  unfold rowStream
  rw [outcome, run_bind, run_factory]
  cases (c.factories.request c.registry row false).1 with
  | error e => rfl
  | ok factory =>
      change outcome (withStatement query _) _ = (c.prepared query >>= _) >>= read
      rw [outcome_withStatement]
      change c.prepared query >>= _ = _
      cases c.prepared query with
      | error e => rfl
      | ok b =>
          change outcome (checkRowColumns factory b.statement >>= _) _ =
            (columnsChecked c.checkRowTypes factory b.statement >>= _) >>= read
          rw [outcome, run_bind, run_checkRowColumns]
          dsimp only
          cases columnsChecked c.checkRowTypes factory b.statement with
          | error e => rfl
          | ok _ => exact reads factory b _

theorem outcome_fetchRows (limit : Option Nat) :
    outcome (fetchRows row query limit) c =
      c.rowStream row query >>= fun s => (s.run.collect limit s.map).1 :=
  outcome_readRows c row query fun _ _ _ => rfl

theorem outcome_forEachRow (each : α → σ → Except AccessError Unit × σ) (start : σ) :
    outcome (forEachRow row query each start) c =
      c.rowStream row query >>= fun s => .ok (s.run.visit s.map each start).1 :=
  outcome_readRows c row query fun _ _ _ => rfl

theorem outcome_fetchValues (type : ValueType) (limit : Option Nat) :
    outcome (fetchValues type query limit) c =
      c.valueStream type query >>= fun s => (s.run.collect limit s.map).1 := by
  unfold fetchValues valueStream
  rw [outcome, run_bind, run_get]
  dsimp only
  rw [run_bind, run_lift]
  cases c.registry.resolve type with
  | error e => rfl
  | ok mapper =>
      change outcome (withStatement query _) c = (c.prepared query >>= _) >>= _
      rw [outcome_withStatement]
      cases c.prepared query with
      | error e => rfl
      | ok b =>
          change outcome (if b.statement.columns.length ≠ mapper.columns then _ else _) _ =
            (if b.statement.columns.length ≠ mapper.columns then _ else _) >>= _
          split <;> rfl

end

/-- What is made of rows of which there may be one. -/
def atMostOneOf : List α → Except AccessError (Option α)
  | [] => .ok none
  | [a] => .ok (some a)
  | _ :: _ :: _ => .error (.cardinality .tooManyRows)

/-- What is made of rows of which there must be one. -/
def exactlyOneOf : List α → Except AccessError α
  | [] => .error (.cardinality .noRows)
  | [a] => .ok a
  | _ :: _ :: _ => .error (.cardinality .tooManyRows)

def required : Option α → Except AccessError α
  | some a => .ok a
  | none => .error (.cardinality .noRows)

theorem exactlyOneOf_eq (items : List α) : exactlyOneOf items = atMostOneOf items >>= required := by
  match items with
  | [] => rfl
  | [_] => rfl
  | _ :: _ :: _ => rfl

namespace Stream

/-- All items of a stream. -/
def all (s : Stream α) : Except AccessError (List α) :=
  (·.rows) <$> (s.run.collect none s.map).1

/-- The only item of a stream, or none; to know that there are no more, one more is asked for. -/
def only (s : Stream α) : Except AccessError (Option α) := do
  let fetched ← (s.run.collect (some 1) s.map).1
  if fetched.more then .error (.cardinality .tooManyRows) else .ok fetched.rows.head?

variable {s : Stream α}

theorem all_eq_ok {items : List α} :
    s.all = .ok items ↔ ∃ more, (s.run.collect none s.map).1 = .ok ⟨items, more⟩ := by
  unfold all
  cases (s.run.collect none s.map).1 with
  | error e => simp
  | ok fetched =>
      obtain ⟨rows, more⟩ := fetched
      simp

theorem only_of_all {items : List α} (whole : s.all = .ok items) : s.only = atMostOneOf items := by
  obtain ⟨more, collected⟩ := all_eq_ok.1 whole
  have first := Run.collectEvents_limited 1 collected
  unfold only Run.collect
  rw [first]
  match items with
  | [] => rfl
  | [_] => rfl
  | _ :: _ :: _ => rfl

theorem all_of_only {a : α} (one : s.only >>= required = .ok a) : s.all = .ok [a] := by
  unfold only at one
  cases first : (s.run.collect (some 1) s.map).1 with
  | error e =>
      rw [first] at one
      cases one
  | ok fetched =>
      obtain ⟨rows, more⟩ := fetched
      rw [first] at one
      cases more with
      | true => cases one
      | false =>
          have whole := Run.collectEvents_unlimited 1 first
          have limited := first.symm.trans (Run.collectEvents_limited 1 whole)
          simp only [Except.ok.injEq, Fetched.mk.injEq] at limited
          have few : ¬1 < rows.length := by simpa using limited.2
          refine all_eq_ok.2 ⟨false, ?_⟩
          match rows, one with
          | [_], rfl => exact whole
          | _ :: _ :: _, _ => simp at few

section

variable {f : α → Except AccessError β} {values : List β}

/-- A stream that can be read and converted to its end, when one item is looked for. -/
theorem only_of_all_converted (whole : (s.all >>= fun items => items.mapM f) = .ok values) :
    s.only >>= required >>= f = exactlyOneOf values ∧
      (s.only >>= fun found => found.mapM f) = atMostOneOf values := by
  cases all : s.all with
  | error e =>
      rw [all] at whole
      cases whole
  | ok items =>
      rw [all] at whole
      rw [only_of_all all]
      match mapM_eq_ok_iff.1 whole with
      | .nil => exact ⟨rfl, rfl⟩
      | .cons (a := a) (b := b) first .nil =>
          refine ⟨first, ?_⟩
          change some <$> f a = .ok (some b)
          rw [first]
          rfl
      | .cons _ (.cons _ _) => exact ⟨rfl, rfl⟩

theorem all_converted_of_only {b : β} (one : s.only >>= required >>= f = .ok b) :
    (s.all >>= fun items => items.mapM f) = .ok [b] := by
  cases only : s.only >>= required with
  | error e =>
      rw [only] at one
      cases one
  | ok a =>
      rw [only] at one
      rw [all_of_only only]
      exact mapM_eq_ok_iff.2 (.cons one .nil)

end

end Stream

section

variable (c : DataContext) (row : RowType α) (query : QueryPiece)

theorem outcome_atMostOne (fetched : Fetched α) :
    outcome (atMostOne fetched) c =
      if fetched.more then .error (.cardinality .tooManyRows) else .ok fetched.rows.head? := by
  unfold atMostOne
  split <;> rfl

theorem outcome_multiRow :
    outcome (multiRow row query) c = c.rowStream row query >>= Stream.all := by
  unfold multiRow
  rw [outcome_map, outcome_fetchRows]
  exact map_bind _ _ _

/-- One that must be there is looked for like one that may be there. -/
theorem outcome_exactlyOne (fetch : Access (Fetched α)) :
    outcome (fetch >>= exactlyOne) c = outcome (fetch >>= atMostOne) c >>= required := by
  refine (congrArg (outcome · c) (bind_assoc fetch atMostOne _).symm).trans ?_
  refine outcome_bind (fun found c => ?_) c
  cases found <;> rfl

theorem outcome_optionalRow :
    outcome (optionalRow row query) c = c.rowStream row query >>= Stream.only := by
  have read := outcome_fetchRows c row query (some 1)
  unfold optionalRow
  rw [outcome_bind fun fetched c => outcome_atMostOne c fetched, read, bind_assoc]
  rfl

theorem outcome_singleRow :
    outcome (singleRow row query) c = c.rowStream row query >>= Stream.only >>= required := by
  rw [← outcome_optionalRow]
  exact outcome_exactlyOne c (fetchRows row query (some 1))

/-- A value as the type that is asked for. -/
def conversion (target : TargetType) (v : Value) : Except AccessError Value :=
  (v.convert target).mapError fun e => .mapping (.conversion e)

variable (type : ValueType) (target : TargetType)

theorem outcome_columnValues :
    outcome (columnValues type target query) c =
      c.valueStream type query >>= fun s => s.all >>= fun values =>
        values.mapM (conversion target) := by
  have steady (fetched : Fetched Value) (c : DataContext) :
      outcome (fetched.rows.mapM (converted target)) c = fetched.rows.mapM (conversion target) :=
    outcome_mapM (conversion target) fetched.rows c
  unfold columnValues
  rw [outcome_bind steady, outcome_fetchValues, bind_assoc]
  refine bind_congr fun s => ?_
  unfold Stream.all
  rw [bind_map_left]

theorem outcome_onlyValue :
    outcome (fetchValues type query (some 1) >>= atMostOne) c =
      c.valueStream type query >>= Stream.only := by
  rw [outcome_bind fun fetched c => outcome_atMostOne c fetched, outcome_fetchValues, bind_assoc]
  rfl

theorem outcome_singleValue :
    outcome (singleValue type target query) c =
      c.valueStream type query >>= Stream.only >>= required >>= conversion target := by
  have whole : singleValue type target query =
      fetchValues type query (some 1) >>= exactlyOne >>= converted target :=
    (bind_assoc _ _ _).symm
  have steady (v : Value) (c : DataContext) :
      outcome (converted target v) c = conversion target v :=
    rfl
  rw [whole, outcome_bind steady, outcome_exactlyOne, outcome_onlyValue]

theorem outcome_optionalValue :
    outcome (optionalValue type target query) c =
      c.valueStream type query >>= Stream.only >>= fun found =>
        found.mapM (conversion target) := by
  rw [← outcome_onlyValue]
  refine (congrArg (outcome · c)
    (bind_assoc (fetchValues type query (some 1)) atMostOne _).symm).trans ?_
  refine outcome_bind (fun found c => ?_) c
  cases found with
  | none => rfl
  | some v =>
      rw [Option.mapM_some, outcome_map]
      rfl

end

/-- The conventions agree about a query. If it can be read as many rows, it can be read as one row,
or as one at most, exactly if there are no more; a callback is given the same rows in the same
order, and where it fails, the reading stops. What is read as one row is read as many of which
there is one. The same holds for values, whatever they are converted to. -/
theorem conventions_agree (c : DataContext) (query : QueryPiece) :
    (∀ {α : Type} (row : RowType α),
      (∀ rs, outcome (multiRow row query) c = .ok rs →
        outcome (singleRow row query) c = exactlyOneOf rs ∧
        outcome (optionalRow row query) c = atMostOneOf rs ∧
        ∀ {σ : Type} (each : α → σ → Except AccessError Unit × σ) (start : σ),
          ((∀ a s, (each a s).1 = .ok ()) →
            outcome (forEachRow row query each start) c =
              .ok ⟨rs.foldl (fun s a => (each a s).2) start, .ok rs.length⟩) ∧
          ∀ seen r unseen s e s', rs = seen ++ r :: unseen → Runs (given each seen) start ⟨⟩ s →
            each r s = (.error e, s') →
            outcome (forEachRow row query each start) c = .ok ⟨s', .error e⟩) ∧
      ∀ r, outcome (singleRow row query) c = .ok r → outcome (multiRow row query) c = .ok [r]) ∧
    (∀ type target,
      (∀ vs, outcome (columnValues type target query) c = .ok vs →
        outcome (singleValue type target query) c = exactlyOneOf vs ∧
        outcome (optionalValue type target query) c = atMostOneOf vs) ∧
      ∀ v, outcome (singleValue type target query) c = .ok v →
        outcome (columnValues type target query) c = .ok [v]) ∧
    CardinalityError.noRows.message = "No rows found" ∧
      CardinalityError.tooManyRows.message = "Too many rows" := by
  refine ⟨?rows, ?values, rfl, rfl⟩
  case rows =>
    intro α row
    rw [outcome_multiRow, outcome_singleRow, outcome_optionalRow]
    cases read : c.rowStream row query with
    | error e => exact ⟨nofun, nofun⟩
    | ok s =>
        refine ⟨fun rs (whole : s.all = .ok rs) => ?_, fun r one => ?_⟩
        · have only := Stream.only_of_all whole
          refine ⟨?single, only, fun each start => ?visit⟩
          case single =>
            change s.only >>= required = _
            rw [only, exactlyOneOf_eq]
          case visit =>
            obtain ⟨more, collected⟩ := Stream.all_eq_ok.1 whole
            rw [outcome_forEachRow, read]
            refine ⟨fun never => ?_, ?_⟩
            · have takes := runs_given_of_never never rs start
              have visited := Run.visitEvents_whole 0 collected takes
              rw [Nat.zero_add] at visited
              exact congrArg Except.ok visited
            · intro seen r unseen reached e _ rows takes fails
              exact congrArg Except.ok (Run.visitEvents_stopped 0 collected rows takes fails)
        · exact Stream.all_of_only one
  case values =>
    intro type target
    rw [outcome_columnValues, outcome_singleValue, outcome_optionalValue]
    cases c.valueStream type query with
    | error e => exact ⟨nofun, nofun⟩
    | ok s => exact ⟨fun _ => Stream.only_of_all_converted, fun _ => Stream.all_converted_of_only⟩

end DataContext

end SqlUnits
