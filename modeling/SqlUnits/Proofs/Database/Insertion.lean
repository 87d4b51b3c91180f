import SqlUnits.Database.Connection
import SqlUnits.Proofs.Check.Passing
/-!
Which rows an insert puts into its table. The number of the last one is what the connection keeps;
a row that is left out, or changes another one, has no part in that.
-/

namespace SqlUnits

/-- Setting a table that stands under a name makes it the one of that name. -/
theorem Database.table?_setTable {db : Database} {u : Table} {name : String}
    (same : Text.sameLetters u.name name = true) :
    (db.setTable u).table? name = (db.table? name).map fun _ => u := by
  have equal : Text.lowerString u.name = Text.lowerString name := by
    simpa [Text.sameLetters] using same
  unfold setTable table?
  simp only
  induction db.tables with
  | nil => rfl
  | cons t rest ih =>
      rw [List.map_cons, List.find?_cons, List.find?_cons]
      have alike : Text.sameLetters t.name u.name = Text.sameLetters t.name name := by
        simp [Text.sameLetters, equal]
      rw [alike]
      cases here : Text.sameLetters t.name name with
      | true => simp [same]
      | false => simpa [here] using ih

namespace Table

theorem mem_insertRow {row r : Row} {rows : List Row} :
    r ∈ insertRow row rows ↔ r = row ∨ r ∈ rows := by
  induction rows with
  | nil => simp [insertRow]
  | cons first rest ih =>
      unfold insertRow
      split
      · simp
      · simp [ih]
        tauto

end Table

namespace Change

variable {t : Table} {p p' p'' : Progress}

/-- The numbers of the rows of a table, as far as a change has come. -/
def numbers (t : Table) (p : Progress) : List Int64 :=
  ((p.database.table? t.name).getD t).rows.map (·.id)

theorem current_name (t : Table) (p : Progress) :
    Text.sameLetters ((p.database.table? t.name).getD t).name t.name = true := by
  cases found : p.database.table? t.name with
  | none => simp [Text.sameLetters]
  | some u => simpa using List.find?_some found

/-- On the way from one state of a change to another, no row has been inserted into a table; rows
of certain numbers may have been written again. -/
structure Within (t : Table) (ids : List Int64) (p p' : Progress) : Prop where
  lastId : p'.lastId = p.lastId
  stands : (p'.database.table? t.name).isSome = (p.database.table? t.name).isSome
  numbers : ∀ n ∈ numbers t p', n ∈ numbers t p ∨ n ∈ ids

namespace Within

variable {ids ids' : List Int64}

theorem of_same (database : p'.database = p.database) (lastId : p'.lastId = p.lastId) :
    Within t ids p p' where
  lastId := lastId
  stands := by rw [database]
  numbers := fun n member => .inl (by rwa [Change.numbers, database] at member)

theorem refl : Within t ids p p :=
  of_same rfl rfl

theorem trans (first : Within t ids p p') (second : Within t ids p' p'') : Within t ids p p'' where
  lastId := second.lastId.trans first.lastId
  stands := second.stands.trans first.stands
  numbers := fun n member => (second.numbers n member).elim (first.numbers n) .inr

theorem mono (inside : Within t ids p p') (known : ∀ n ∈ ids, n ∈ Change.numbers t p ∨ n ∈ ids') :
    Within t ids' p p' where
  lastId := inside.lastId
  stands := inside.stands
  numbers := fun n member => (inside.numbers n member).elim .inl (known n)

theorem setTable {u : Table} (same : Text.sameLetters u.name t.name = true)
    (known : ∀ row ∈ u.rows, row.id ∈ Change.numbers t p ∨ row.id ∈ ids) :
    Within t ids p { p with database := p.database.setTable u } := by
  have found := @Database.table?_setTable p.database _ _ same
  refine ⟨rfl, ?_, ?_⟩
  · simp [found]
  · intro n member
    unfold Change.numbers at member ⊢
    simp only [found] at member
    cases stands : p.database.table? t.name with
    | none =>
        rw [stands] at member
        exact .inl member
    | some now =>
        rw [stands] at member
        obtain ⟨row, inside, rfl⟩ := List.mem_map.1 member
        rw [← stands]
        exact known row inside

end Within

theorem runs_modify {f : Progress → Progress} {u : PUnit} :
    Runs (modify f : Changing PUnit) p u p' ↔ p' = f p := by
  have outcome : ((modify f : Changing PUnit).run).run p = (.ok ⟨⟩, f p) := rfl
  rw [runs_iff outcome]
  exact and_iff_right rfl

theorem runs_currentTable {u : Table} :
    Runs (currentTable t) p u p' ↔ u = (p.database.table? t.name).getD t ∧ p' = p := by
  have outcome : ((currentTable t).run).run p = (.ok ((p.database.table? t.name).getD t), p) := rfl
  rw [runs_iff outcome, Except.ok.injEq, eq_comm]

/-- A part of a change that leaves the database as it is. -/
def Quiet (x : Changing α) : Prop :=
  ∀ p a p', Runs x p a p' → p'.database = p.database ∧ p'.lastId = p.lastId

namespace Quiet

theorem pure (a : α) : Quiet (pure a : Changing α) := by
  intro p b p' runs
  obtain ⟨_, rfl⟩ := runs_pure.1 runs
  exact ⟨rfl, rfl⟩

theorem throw (r : Refusal) : Quiet (throw r : Changing α) :=
  fun _ _ _ runs => absurd runs not_runs_throw

theorem bind {x : Changing α} {k : α → Changing β} (first : Quiet x) (second : ∀ a, Quiet (k a)) :
    Quiet (x >>= k) := by
  intro p b p'' runs
  obtain ⟨a, p', one, two⟩ := runs_bind.1 runs
  obtain ⟨database, lastId⟩ := first p a p' one
  obtain ⟨database', lastId'⟩ := second a p' b p'' two
  exact ⟨database'.trans database, lastId'.trans lastId⟩

theorem modify {f : Progress → Progress} (database : ∀ p, (f p).database = p.database)
    (lastId : ∀ p, (f p).lastId = p.lastId) : Quiet (modify f : Changing PUnit) := by
  intro p u p' runs
  obtain rfl := runs_modify.1 runs
  exact ⟨database p, lastId p⟩

theorem currentTable : Quiet (currentTable t) := by
  intro p u p' runs
  obtain ⟨_, rfl⟩ := runs_currentTable.1 runs
  exact ⟨rfl, rfl⟩

theorem evaluated (e : Eval α) : Quiet (evaluated e) := by
  unfold Change.evaluated
  rcases e.outcome with ⟨result, calls⟩
  refine (modify ?_ ?_).bind fun _ => ?_
  · exact fun _ => rfl
  · exact fun _ => rfl
  cases result with
  | error m => exact .throw _
  | ok a => exact .pure a

theorem broken (conflict : Sql.Conflict) (message : String) : Quiet (broken conflict message) := by
  unfold Change.broken
  split
  · exact .pure false
  · exact .throw _

theorem checksHold (rules : TableRules) (env : Env) (conflict : Sql.Conflict) (row : List Stored) :
    Quiet (checksHold rules env conflict row) := by
  refine (evaluated _).bind fun failed => ?_
  split
  · exact .pure true
  · exact .broken conflict _

theorem presentValues (rules : TableRules) (env : Env) (conflict : Sql.Conflict)
    (columns : List (TableColumn × Nat)) (values : List Stored) :
    Quiet (presentValues t rules env conflict columns values) := by
  induction columns generalizing values with
  | nil => exact .pure _
  | cons column columns ih =>
      cases values with
      | nil => exact .pure _
      | cons v values =>
          have kept (v : Stored) : Quiet (do
              let found ← Change.presentValues t rules env conflict columns values
              Pure.pure (found.map (v :: ·))) :=
            (ih values).bind fun found => .pure _
          rw [Change.presentValues]
          split
          · exact kept v
          · rename_i own _
            split
            · exact kept v
            · dsimp only
              generalize (if conflict = .abort then own else conflict) = chosen
              split
              · refine (evaluated _).bind fun d => ?_
                split
                · exact .throw _
                · exact kept d
              · exact (broken _ _).bind fun _ => .pure none

theorem rowNumber (v : Stored) : Quiet (rowNumber v) := by
  unfold Change.rowNumber
  split
  · exact .pure none
  · exact .pure _
  · exact .throw _

theorem counted : Quiet counted := by
  refine modify ?_ ?_
  · exact fun _ => rfl
  · exact fun _ => rfl

theorem returnRow (env : Env) (results : List Query.Result) (row : List Stored) :
    Quiet (returnRow env results row) := by
  unfold Change.returnRow
  split
  · refine (evaluated _).bind fun values => modify ?_ ?_
    · exact fun _ => rfl
    · exact fun _ => rfl
  · exact .pure _

theorem get : Quiet (get : Changing Progress) := by
  intro p now p' runs
  cases runs
  exact ⟨rfl, rfl⟩

theorem checkKeys (before : Database) (enforced : Bool) : Quiet (checkKeys before enforced) := by
  refine get.bind fun p => ?_
  split
  · exact .throw _
  · exact .pure _

end Quiet

/-- A part of a change that inserts nothing, and writes no rows again but those of certain
numbers. -/
def Leaving (t : Table) (ids : List Int64) (x : Changing α) : Prop :=
  ∀ p a p', Runs x p a p' → Within t ids p p'

/-- To set the table as it stands, with other rows. -/
theorem within_setCurrent {ids : List Int64} {now next : Table} {p₁ : Progress} {u : Unit}
    (current : Runs (currentTable t) p now p₁) (set : Runs (setTable next) p₁ u p')
    (name : next.name = now.name) (rows : ∀ row ∈ next.rows, row ∈ now.rows ∨ row.id ∈ ids) :
    Within t ids p p' := by
  obtain ⟨rfl, same⟩ := runs_currentTable.1 current
  subst same
  obtain rfl := runs_modify.1 set
  have same : Text.sameLetters next.name t.name = true := by
    rw [name]
    exact current_name t _
  refine .setTable same fun row member => (rows row member).imp_left fun inside => ?_
  exact List.mem_map_of_mem inside

namespace Leaving

variable {ids : List Int64}

theorem of_quiet {x : Changing α} (quiet : Quiet x) : Leaving t ids x := by
  intro p a p' runs
  obtain ⟨database, lastId⟩ := quiet p a p' runs
  exact .of_same database lastId

theorem pure (a : α) : Leaving t ids (pure a : Changing α) :=
  of_quiet (.pure a)

theorem bind {x : Changing α} {k : α → Changing β} (first : Leaving t ids x)
    (second : ∀ a, Leaving t ids (k a)) : Leaving t ids (x >>= k) := by
  intro p b p'' runs
  obtain ⟨a, p', one, two⟩ := runs_bind.1 runs
  exact (first p a p' one).trans (second a p' b p'' two)

theorem removeRow (id : Int64) : Leaving t ids (removeRow t id) := by
  intro p u p' runs
  obtain ⟨now, p₁, current, set⟩ := runs_bind.1 runs
  exact within_setCurrent current set rfl fun row member =>
    .inl (List.mem_filter.1 member).1

theorem clearUnique (conflict : Sql.Conflict) (values : List Stored) (own : Option Int64)
    (unique : List UniqueRule) : Leaving t ids (clearUnique t conflict values own unique) := by
  induction unique with
  | nil => exact .pure true
  | cons rule rest ih =>
      refine (of_quiet .currentTable).bind fun now => ?_
      split
      · exact ih
      · split
        · exact (removeRow _).bind fun _ => ih
        · exact .of_quiet (.broken conflict _)

theorem clearNumber (conflict : Sql.Conflict) (inDoubt : Bool) (id : Int64) :
    Leaving t ids (clearNumber t conflict inDoubt id) := by
  unfold Change.clearNumber
  split
  · refine (of_quiet .currentTable).bind fun now => ?_
    split
    · exact .pure true
    · split
      · exact (removeRow id).bind fun _ => .pure true
      · exact .of_quiet (.broken conflict _)
  · exact .pure true

/-- To put new values in the place of a row brings no number into the table but its own. -/
theorem replaceRow (rules : TableRules) (env : Env) (conflict : Sql.Conflict) (old : Row)
    (newId : Int64) (values : List Stored) (results : List Query.Result) :
    Leaving t [newId] (replaceRow t rules env conflict old newId values results) := by
  refine (of_quiet (.presentValues rules env conflict _ _)).bind fun found => ?_
  cases found with
  | none => exact .pure _
  | some values =>
      refine (of_quiet (.checksHold rules env conflict _)).bind fun holds => ?_
      split
      · exact .pure _
      refine (clearNumber conflict _ newId).bind fun free => ?_
      split
      · exact .pure _
      refine (clearUnique conflict _ _ _).bind fun unique => ?_
      split
      · exact .pure _
      intro p a p' runs
      obtain ⟨now, p₁, current, runs⟩ := runs_bind.1 runs
      obtain ⟨_, p₂, set, rest⟩ := runs_bind.1 runs
      have written : Within t [newId] p p₂ := by
        refine within_setCurrent current set rfl fun row member => ?_
        rcases Table.mem_insertRow.1 member with rfl | others
        · exact .inr List.mem_cons_self
        · exact .inl (List.mem_filter.1 others).1
      have noted : Quiet (do
          counted
          returnRow env results (Source.tableRow ⟨newId, values⟩)) :=
        Quiet.counted.bind fun _ => .returnRow env results _
      exact written.trans (of_quiet noted p₂ a p' rest)

end Leaving

/-! Rows that are put in. -/

/-- On the way from one state of a change to another, rows of certain numbers have been put into a
table one after the other, and no others; the last number is kept, if rows have numbers. -/
structure Grows (t : Table) (ids : List Int64) (p p' : Progress) : Prop where
  lastId : p'.lastId = if t.withoutRowid then p.lastId else ids.getLastD p.lastId
  stands : (p'.database.table? t.name).isSome = (p.database.table? t.name).isSome
  numbers : ∀ n ∈ numbers t p', n ∈ numbers t p ∨ n ∈ ids

theorem Within.grows (within : Within t [] p p') : Grows t [] p p' where
  lastId := by simp [within.lastId]
  stands := within.stands
  numbers := within.numbers

theorem Grows.trans {ids ids' : List Int64} (first : Grows t ids p p')
    (second : Grows t ids' p' p'') : Grows t (ids ++ ids') p p'' where
  lastId := by
    rw [second.lastId, first.lastId]
    split
    · rfl
    · simp [List.getLastD_eq_getLast?, List.getLast?_append]
  stands := second.stands.trans first.stands
  numbers := fun n member => by
    rw [List.mem_append, ← or_assoc]
    exact (second.numbers n member).imp_left (first.numbers n)

theorem numbers_of_same (database : p'.database = p.database) : numbers t p' = numbers t p := by
  unfold numbers
  rw [database]

/-- On the way from one state of a change to another, at most one row has been put in, and it is
there; without a number none has. -/
def Puts (t : Table) (number : Option Int64) (p p' : Progress) : Prop :=
  Grows t number.toList p p' ∧
    ((p.database.table? t.name).isSome → ∀ n ∈ number, n ∈ numbers t p')

theorem Within.puts_none (within : Within t [] p p') : Puts t none p p' :=
  ⟨within.grows, nofun⟩

theorem Within.then_puts {number : Option Int64} (first : Within t [] p p')
    (second : Puts t number p' p'') : Puts t number p p'' :=
  ⟨first.grows.trans second.1, fun stands => second.2 (first.stands.trans stands)⟩

/-- A row that is added to the table as it stands, and whose number is kept. -/
theorem puts_addRow {now : Table} {row : Row} {p₁ p₂ : Progress} {u : Unit}
    (current : Runs (currentTable t) p now p₁) (set : Runs (setTable (now.addRow row)) p₁ u p₂)
    (same : p'.database = p₂.database)
    (last : p'.lastId = if t.withoutRowid then p₂.lastId else row.id) :
    Puts t (some row.id) p p' := by
  have within : Within t [row.id] p p₂ := within_setCurrent current set rfl fun r member => by
    rcases Table.mem_insertRow.1 member with rfl | others
    · exact .inr List.mem_cons_self
    · exact .inl others
  refine ⟨⟨?_, ?_, ?_⟩, ?_⟩
  · rw [last, within.lastId]
    rfl
  · rw [same]
    exact within.stands
  · rw [numbers_of_same same]
    exact within.numbers
  · intro stands n here
    cases here
    rw [numbers_of_same same]
    obtain ⟨rfl, unmoved⟩ := runs_currentTable.1 current
    subst unmoved
    obtain rfl := runs_modify.1 set
    have named : Text.sameLetters (((p₁.database.table? t.name).getD t).addRow row).name t.name =
        true :=
      current_name t p₁
    obtain ⟨now, here⟩ := Option.isSome_iff_exists.1 stands
    have found := @Database.table?_setTable p₁.database _ _ named
    rw [here] at found
    simp only [numbers]
    rw [here, found]
    exact List.mem_map.2 ⟨row, Table.mem_insertRow.2 (.inl rfl), rfl⟩

/-- A row that is inserted gives its number back; one that a check leaves out gives none. -/
theorem insertNew_puts {rules : TableRules} {env : Env} {conflict : Sql.Conflict} {id : Int64}
    {values : List Stored} {explicitId : Bool} {results : List Query.Result}
    {number : Option Int64}
    (runs : Runs (insertNew t rules env conflict id values explicitId results) p number p') :
    Puts t number p p' := by
  unfold insertNew at runs
  obtain ⟨holds, p₁, checked, runs⟩ := runs_bind.1 runs
  have one : Within t [] p p₁ := Leaving.of_quiet (.checksHold rules env conflict _) _ _ _ checked
  split at runs
  · obtain ⟨rfl, rfl⟩ := runs_pure.1 runs
    exact one.puts_none
  obtain ⟨free, p₂, cleared, runs⟩ := runs_bind.1 runs
  have two := one.trans (Leaving.clearNumber conflict explicitId id _ _ _ cleared)
  split at runs
  · obtain ⟨rfl, rfl⟩ := runs_pure.1 runs
    exact two.puts_none
  obtain ⟨unique, p₃, cleared, runs⟩ := runs_bind.1 runs
  have three := two.trans (Leaving.clearUnique conflict values none t.unique _ _ _ cleared)
  split at runs
  · obtain ⟨rfl, rfl⟩ := runs_pure.1 runs
    exact three.puts_none
  obtain ⟨now, p₄, current, runs⟩ := runs_bind.1 runs
  obtain ⟨_, p₅, set, runs⟩ := runs_bind.1 runs
  -- What is left to do is the same for tables with and without row numbers.
  have noted {p₆ : Progress} (rest : Runs (do
      counted
      returnRow env results (Source.tableRow ⟨id, values⟩)
      pure (some id)) p₆ number p') :
      number = some id ∧ p'.database = p₆.database ∧ p'.lastId = p₆.lastId := by
    obtain ⟨_, p₇, counts, rest⟩ := runs_bind.1 rest
    obtain ⟨_, p₈, returns, rest⟩ := runs_bind.1 rest
    obtain ⟨rfl, rfl⟩ := runs_pure.1 rest
    obtain ⟨database, lastId⟩ := Quiet.counted _ _ _ counts
    obtain ⟨database', lastId'⟩ := Quiet.returnRow env results _ _ _ _ returns
    exact ⟨rfl, database'.trans database, lastId'.trans lastId⟩
  have last : number = some id ∧ p'.database = p₅.database ∧
      p'.lastId = if t.withoutRowid then p₅.lastId else id := by
    cases withoutRowid : t.withoutRowid with
    | true =>
        rw [withoutRowid] at runs
        exact noted runs
    | false =>
        rw [withoutRowid] at runs
        obtain ⟨_, p₆, kept, rest⟩ := runs_bind.1 runs
        obtain rfl := runs_modify.1 kept
        exact noted rest
  obtain ⟨rfl, same, last⟩ := last
  exact three.then_puts (puts_addRow current set same last)

theorem upsertRival?_mem {plan : UpsertPlan} {id : Option Int64} {values : List Stored}
    {rival : Row} (found : upsertRival? t plan id values = some rival) : rival ∈ t.rows := by
  have either {a b : Option Row} (found : (a <|> b) = some rival) :
      a = some rival ∨ b = some rival := by
    cases a with
    | none => exact .inr found
    | some _ => exact .inl found
  rcases either found with byId | byRule
  · split at byId
    · obtain ⟨n, _, here⟩ := Option.bind_eq_some_iff.1 byId
      exact List.mem_of_find?_eq_some here
    · cases byId
  · obtain ⟨rule, _, here⟩ := List.exists_of_findSome?_eq_some byRule
    split at here
    · exact List.mem_of_find?_eq_some here
    · cases here

/-- A row of an insert is put in or not: if its rival is changed instead, that has been there. -/
theorem insertRow_puts {rules : TableRules} {env : Env} {conflict : Sql.Conflict}
    {upsert : Option UpsertPlan} {results : List Query.Result} {given : Stored}
    {values : List Stored} {number : Option Int64}
    (runs : Runs (insertRow t rules env conflict upsert results given values) p number p') :
    Puts t number p p' := by
  have stays {p p' : Progress} {α : Type} {x : Changing α} {a : α} (quiet : Quiet x)
      (runs : Runs x p a p') : Within t [] p p' :=
    Leaving.of_quiet quiet p a p' runs
  unfold insertRow at runs
  obtain ⟨wished, p₁, wishes, runs⟩ := runs_bind.1 runs
  refine (stays (.rowNumber _) wishes).then_puts ?_
  obtain ⟨before, p₂, current, runs⟩ := runs_bind.1 runs
  refine (stays .currentTable current).then_puts ?_
  obtain ⟨found, p₃, present, runs⟩ := runs_bind.1 runs
  refine (stays (.presentValues rules env conflict _ _) present).then_puts ?_
  split at runs
  · obtain ⟨rfl, rfl⟩ := runs_pure.1 runs
    exact Within.refl.puts_none
  obtain ⟨now, p₄, current, runs⟩ := runs_bind.1 runs
  refine (stays .currentTable current).then_puts ?_
  split at runs
  · exact insertNew_puts runs
  · rename_i u rival chosen
    split at runs
    · obtain ⟨rfl, rfl⟩ := runs_pure.1 runs
      exact Within.refl.puts_none
    obtain ⟨new, p₅, updates, runs⟩ := runs_bind.1 runs
    refine (stays (.evaluated _) updates).then_puts ?_
    split at runs
    · obtain ⟨rfl, rfl⟩ := runs_pure.1 runs
      exact Within.refl.puts_none
    obtain ⟨_, p₆, replaced, runs⟩ := runs_bind.1 runs
    obtain ⟨rfl, rfl⟩ := runs_pure.1 runs
    obtain ⟨u', _, rivals⟩ := Option.bind_eq_some_iff.1 chosen
    obtain ⟨rival', here, same⟩ := Option.map_eq_some_iff.1 rivals
    cases same
    have known : rival.id ∈ numbers t p₅ := by
      obtain ⟨rfl, rfl⟩ := runs_currentTable.1 current
      rw [numbers_of_same (Quiet.evaluated _ _ _ _ updates).1]
      exact List.mem_map_of_mem (upsertRival?_mem here)
    refine Within.puts_none ((Leaving.replaceRow _ _ _ _ _ _ _ _ _ _ replaced).mono ?_)
    exact fun n member => .inl (List.mem_singleton.1 member ▸ known)

namespace Insertion

variable {i : Insertion} {env : Env}

/-- What an insert notes for a row is the number of the row that it put in, if it put in one. -/
theorem insert_puts {values : List Stored} {number : Option Int64}
    (runs : Runs (i.insert env values) p number p') : Puts i.table number p p' := by
  obtain ⟨defaults, p₁, evaluates, runs⟩ := runs_bind.1 runs
  have quiet : Within i.table [] p p₁ := Leaving.of_quiet (.evaluated _) _ _ _ evaluates
  exact quiet.then_puts (insertRow_puts runs)

/-- The rows of an insert are put in one after the other. -/
theorem mapM_insert_grows {given : List (List Stored)} {numbers : List (Option Int64)}
    (runs : Runs (given.mapM (i.insert env)) p numbers p') :
    Grows i.table numbers.reduceOption p p' := by
  induction given generalizing p numbers with
  | nil =>
      rw [List.mapM_nil] at runs
      obtain ⟨rfl, rfl⟩ := runs_pure.1 runs
      exact Within.refl.grows
  | cons values given ih =>
      rw [List.mapM_cons] at runs
      obtain ⟨number, p₁, first, runs⟩ := runs_bind.1 runs
      obtain ⟨others, p₂, rest, runs⟩ := runs_bind.1 runs
      obtain ⟨rfl, rfl⟩ := runs_pure.1 runs
      have grows := (insert_puts first).1.trans (ih rest)
      cases number <;> exact grows

theorem run_grows {numbers : List Int64} (runs : Runs (i.run env) p numbers p') :
    Grows i.table numbers p p' := by
  obtain ⟨given, p₁, evaluates, runs⟩ := runs_bind.1 runs
  obtain ⟨each, p₂, inserts, runs⟩ := runs_bind.1 runs
  obtain ⟨_, p₃, checks, runs⟩ := runs_bind.1 runs
  obtain ⟨rfl, rfl⟩ := runs_pure.1 runs
  have before : Within i.table [] p p₁ := Leaving.of_quiet (.evaluated _) _ _ _ evaluates
  have after : Within i.table [] p₂ p' := Leaving.of_quiet (.checkKeys _ _) _ _ _ checks
  have whole := (before.grows.trans (mapM_insert_grows inserts)).trans after.grows
  rwa [List.nil_append, List.append_nil] at whole

end Insertion

end Change

end SqlUnits
