import SqlUnits.Proofs.Database.Source
import SqlUnits.Sql.Projection
/-!
Where the tables of a query are in its rows. A column of a table is read from a row of that table
wherever no join makes the table optional.
-/

namespace SqlUnits

/-! Contents of tables. -/

/-- A row that a table may contain. -/
structure Table.Admits (t : Table) (row : Row) : Prop where
  width : row.values.length = t.columns.length
  notNull : ∀ (i : Nat) (c : TableColumn), t.columns[i]? = some c → c.notNull.isSome = true →
    row.values[i]? ≠ some .null
  number : ∀ i, t.rowidColumn = some i → row.values[i]? = some (.integer row.id)

/-- A database whose tables contain nothing that they forbid. -/
def Database.Admitted (db : Database) : Prop :=
  ∀ t ∈ db.tables, ∀ row ∈ t.rows, t.Admits row

instance (t : Table) (row : Row) : Decidable (t.Admits row) :=
  decidable_of_iff (row.values.length = t.columns.length ∧
    (∀ i, (inside : i < t.columns.length) → t.columns[i].notNull.isSome = true →
      row.values[i]? ≠ some .null) ∧
    ∀ i ∈ t.rowidColumn, row.values[i]? = some (.integer row.id)) <| by
  constructor
  · intro admits
    refine ⟨admits.1, ?_, admits.2.2⟩
    intro i c there forbids
    obtain ⟨inside, rfl⟩ := List.getElem?_eq_some_iff.1 there
    exact admits.2.1 i inside forbids
  · intro admits
    refine ⟨admits.width, ?_, admits.number⟩
    intro i inside forbids
    exact admits.notNull i _ (List.getElem?_eq_getElem inside) forbids

instance (db : Database) : Decidable db.Admitted :=
  inferInstanceAs (Decidable (∀ t ∈ db.tables, ∀ row ∈ t.rows, t.Admits row))

/-! Where the columns of tables are found. -/

/-- The columns of a table, as the source of a query has them. -/
structure SourceTable.Located (t : SourceTable) (table : Table) (s : SourceInfo) : Prop where
  name : s.name = t.asName.getD table.name
  names : s.columns.map (·.name) = table.columns.map (·.name)
  rowid : ∀ place label, s.rowid = some (place, label) → place = table.columns.length
  alike : ∀ c ∈ s.columns, ∀ d ∈ s.columns, Text.sameLetters c.name d.name = true →
    c.shared = d.shared

def SourceTable.Traced (db : Database) (t : SourceTable) (s : SourceInfo) : Prop :=
  ∀ table, db.table? t.name = some table → t.Located table s

/-- A row of joined sources has a row of the table in it, unless a join makes the table optional. -/
def SourceTable.Present (db : Database) (row : List Stored) (t : SourceTable) (s : SourceInfo) :
    Prop :=
  t.outer = false → ∀ table, db.table? t.name = some table →
    ∃ r ∈ table.rows, ∀ j ≤ r.values.length, row[s.start + j]? = (Source.tableRow r)[j]?

theorem SourceTable.Present.append {db : Database} {row : List Stored} {t : SourceTable}
    {s : SourceInfo} (present : t.Present db row s) (more : List Stored) :
    t.Present db (row ++ more) s := by
  intro inner table known
  obtain ⟨r, member, cells⟩ := present inner table known
  refine ⟨r, member, ?_⟩
  intro j inside
  have cell := cells j inside
  have there : j < (Source.tableRow r).length := by
    rw [Source.tableRow, List.length_append, List.length_singleton]
    omega
  rw [List.getElem?_eq_getElem there] at cell
  rw [List.getElem?_append_left (List.getElem?_eq_some_iff.1 cell).1, cell,
    List.getElem?_eq_getElem there]

namespace Source

/-- The one source that a name stands for. -/
theorem Means.infos {db : Database} {name : String} {asName : Option String} {p : SourcePlan}
    (means : Means db name asName p) :
    ∃ info, p.infos = [info] ∧ info.start = 0 ∧ (∀ c ∈ info.columns, c.shared = false) ∧
      ∀ table, db.table? name = some table → info = tableInfo (asName.getD table.name) table := by
  cases means with
  | @table t known =>
      refine ⟨_, rfl, rfl, ?_, ?_⟩
      · intro c member
        obtain ⟨column, _, rfl⟩ := List.mem_map.1 member
        rfl
      · intro table known'
        rw [known] at known'
        cases known'
        rfl
  | other none single start plain _ =>
      refine ⟨_, single, start, plain, ?_⟩
      intro table known
      rw [none] at known
      cases known

theorem markShared_nil (s : SourceInfo) : markShared [] s = s := by
  simp [markShared]

/-- A table stays where it is, whatever columns it shares. -/
theorem tableInfo_located (name : String) (asName : Option String) (outer : Bool) (table : Table)
    (start : Nat) (names : List String) :
    SourceTable.Located ⟨name, asName, outer⟩ table
      (markShared names (shift start (tableInfo (asName.getD table.name) table))) := by
  constructor
  · rfl
  · simp only [markShared, shift, tableInfo, List.map_map]
    apply List.map_congr_left
    intro c _
    simp only [Function.comp_apply]
    split <;> rfl
  · intro place label found
    simp only [markShared, shift, tableInfo] at found
    split at found
    · cases found
    · cases found
      rfl
  · have shared : ∀ c ∈ (markShared names
        (shift start (tableInfo (asName.getD table.name) table))).columns,
        c.shared = names.any (Text.sameLetters · c.name) := by
      intro c member
      simp only [markShared, shift, tableInfo, List.mem_map] at member
      obtain ⟨d, ⟨column, _, rfl⟩, rfl⟩ := member
      split
      · rename_i named
        exact named.symm
      · rename_i unnamed
        exact (Bool.eq_false_iff.2 unnamed).symm
    intro c member d member' same
    rw [shared c member, shared d member']
    congr 1
    funext name
    unfold Text.sameLetters
    rw [Text.sameLetters_iff.1 same]

/-- Sources as they are joined: what is known of their tables, where they are, and how they are
joined. A join that keeps the rows of its right side makes all tables before it optional. -/
inductive Layout (db : Database) (unshared : Prop) : List SourceTable → List SourceInfo → Nat →
    List (Sql.JoinKind × SourcePlan) → Prop
  | nil : Layout db unshared [] [] 0 []
  | snoc {tables : List SourceTable} {infos : List SourceInfo} {width : Nat}
      {joins : List (Sql.JoinKind × SourcePlan)} {name : String} {asName : Option String}
      {kind : Sql.JoinKind} {p : SourcePlan} {info : SourceInfo} {names : List String} :
      Layout db unshared tables infos width joins → Means db name asName p → p.infos = [info] →
      (unshared → names = []) →
      Layout db unshared
        ((if kind.right then SelectSources.markOuter tables else tables) ++
          [⟨name, asName, kind.left⟩])
        (infos ++ [markShared names (shift width info)]) (width + p.width) (joins ++ [(kind, p)])

namespace Layout

variable {db : Database} {unshared : Prop} {tables : List SourceTable} {infos : List SourceInfo}
  {width : Nat} {joins : List (Sql.JoinKind × SourcePlan)}

theorem width_eq (layout : Layout db unshared tables infos width joins) :
    width = total (joins.map (·.2.width)) := by
  induction layout with
  | nil => rfl
  | snoc _ _ _ _ ih => simp [ih]

theorem eq_nil (layout : Layout db unshared tables infos width joins) (none : joins = []) :
    tables = [] ∧ infos = [] ∧ width = 0 := by
  cases layout with
  | nil => exact ⟨rfl, rfl, rfl⟩
  | snoc => simp at none

theorem markOuter_traced {tables : List SourceTable} {infos : List SourceInfo}
    (traced : List.Forall₂ (SourceTable.Traced db) tables infos) :
    List.Forall₂ (SourceTable.Traced db) (SelectSources.markOuter tables) infos := by
  unfold SelectSources.markOuter
  rw [List.forall₂_map_left_iff]
  apply traced.imp
  intro t s traced table known
  obtain ⟨name, names, rowid, alike⟩ := traced table known
  exact ⟨name, names, rowid, alike⟩

/-- Every table is located in the source that it is. -/
theorem traced (layout : Layout db unshared tables infos width joins) :
    List.Forall₂ (SourceTable.Traced db) tables infos := by
  induction layout with
  | nil => exact .nil
  | @snoc tables infos width joins name asName kind p info names _ means single _ ih =>
      apply List.rel_append
      · split
        · exact markOuter_traced ih
        · exact ih
      · refine .cons ?_ .nil
        intro table known
        obtain ⟨other, single', _, _, isTable⟩ := means.infos
        rw [single] at single'
        cases single'
        rw [isTable table known]
        exact tableInfo_located name asName kind.left table width names

/-- Where no columns are shared, no column of a source is. -/
theorem columns_unshared (layout : Layout db unshared tables infos width joins)
    (plain : unshared) : ∀ s ∈ infos, ∀ c ∈ s.columns, c.shared = false := by
  induction layout with
  | nil => nofun
  | @snoc tables infos width joins name asName kind p info names _ means single none ih =>
      obtain rfl := none plain
      intro s member
      rcases List.mem_append.1 member with earlier | last
      · exact ih s earlier
      · obtain rfl := List.mem_singleton.1 last
        obtain ⟨other, single', _, own, _⟩ := means.infos
        rw [single] at single'
        cases single'
        rw [markShared_nil]
        exact own

/-- The rows of a source, behind others. -/
theorem present_last {env : Env} (same : db.SameSchema env.database)
    (admitted : env.database.Admitted) {name : String} {asName : Option String} {p : SourcePlan}
    (means : Means db name asName p) {info : SourceInfo} (single : p.infos = [info])
    {row : List Stored} (member : row ∈ (p.rows env).items) (left : List Stored) (outer : Bool)
    (names : List String) : row.length = p.width ∧
      SourceTable.Present env.database (left ++ row) ⟨name, asName, outer⟩
        (markShared names (shift left.length info)) := by
  have schema := same.table? name
  cases means with
  | @table t known =>
      cases single
      have named := Database.table?_name known
      rw [known, ← env.database.table?_congr named] at schema
      obtain ⟨now, found, bare⟩ := Option.map_eq_some_iff.1 schema.symm
      have member : row ∈ (tableRows t.name env).items := member
      rw [tableRows, found, Run.items_ofList] at member
      obtain ⟨r, inside, rfl⟩ := List.mem_map.1 member
      have width : r.values.length = t.columns.length := by
        rw [← Table.columns_of_bare bare]
        exact (admitted now (List.mem_of_find?_eq_some found) r inside).width
      refine ⟨by simp [tableRow, ofTable, width], ?_⟩
      intro _ table known'
      rw [← env.database.table?_congr named, found] at known'
      cases known'
      refine ⟨r, inside, ?_⟩
      intro j _
      change (left ++ tableRow r)[0 + left.length + j]? = _
      rw [Nat.zero_add, List.getElem?_append_right (Nat.le_add_right _ _), Nat.add_sub_cancel_left]
  | other none _ _ _ fills =>
      refine ⟨fills env row member, ?_⟩
      intro _ table known
      rw [none, known] at schema
      cases schema

theorem runJoin_append (env : Env) (steps : List JoinStep) (step : JoinStep) (width : Nat)
    (rows : Run (List Stored)) :
    runJoin env width rows (steps ++ [step]) =
      (step.plan.rows env).gather fun right =>
        joinRows step.kind (width + total (steps.map (·.plan.width))) step.plan.width
          (fun row => allHold step.conditions (env.push ⟨row, []⟩)) (runJoin env width rows steps)
          right := by
  induction steps generalizing width rows with
  | nil => simp [runJoin]
  | cons first steps ih =>
      rw [List.cons_append, runJoin, ih, runJoin]
      simp only [List.map_cons, total_cons, Nat.add_assoc]

theorem markOuter_present (layout : Layout db unshared tables infos width joins) (now : Database)
    (row : List Stored) :
    List.Forall₂ (SourceTable.Present now row) (SelectSources.markOuter tables) infos := by
  unfold SelectSources.markOuter
  rw [List.forall₂_map_left_iff]
  apply layout.traced.imp
  intro t s _ inner
  cases inner

/-- A source that is joined leaves the rows of those before it in their places. -/
theorem present_joinRows {env : Env} (same : db.SameSchema env.database)
    (admitted : env.database.Admitted) (before : Layout db unshared tables infos width joins)
    {name : String} {asName : Option String} {kind : Sql.JoinKind} {p : SourcePlan}
    (means : Means db name asName p) {info : SourceInfo} (single : p.infos = [info])
    (names : List String) {left : Run (List Stored)}
    (earlier : ∀ l ∈ left.items, l.length = width ∧
      List.Forall₂ (SourceTable.Present env.database l) tables infos)
    {holds : List Stored → Eval Bool} {row : List Stored}
    (member : row ∈ (joinRows kind width p.width holds left (p.rows env).items).items) :
    row.length = width + p.width ∧
      List.Forall₂ (SourceTable.Present env.database row)
        ((if kind.right then SelectSources.markOuter tables else tables) ++
          [⟨name, asName, kind.left⟩])
        (infos ++ [markShared names (shift width info)]) := by
  have others : ∀ l ∈ left.items, ∀ more,
      List.Forall₂ (SourceTable.Present env.database (l ++ more))
        (if kind.right then SelectSources.markOuter tables else tables) infos := by
    intro l inside more
    split
    · exact before.markOuter_present env.database (l ++ more)
    · exact (earlier l inside).2.imp fun t s here => here.append more
  rcases mem_joinRows member with matched | alone | alone
  · obtain ⟨l, inside, r, there, rfl⟩ := matched
    obtain ⟨length, here⟩ := present_last same admitted means single there l kind.left names
    rw [(earlier l inside).1] at here
    refine ⟨by rw [List.length_append, (earlier l inside).1, length], ?_⟩
    exact List.rel_append (others l inside r) (.cons here .nil)
  · obtain ⟨optional, l, inside, rfl⟩ := alone
    refine ⟨by rw [List.length_append, (earlier l inside).1, List.length_replicate], ?_⟩
    refine List.rel_append (others l inside _) (.cons ?_ .nil)
    intro inner
    rw [optional] at inner
    cases inner
  · obtain ⟨optional, r, there, rfl⟩ := alone
    obtain ⟨length, here⟩ := present_last same admitted means single there
      (List.replicate width .null) kind.left names
    rw [List.length_replicate] at here
    refine ⟨by rw [List.length_append, List.length_replicate, length], ?_⟩
    rw [optional, if_pos rfl]
    exact List.rel_append (before.markOuter_present env.database _) (.cons here .nil)

/-- Every joined row has rows of all tables that no join makes optional. -/
theorem present {env : Env} (same : db.SameSchema env.database)
    (admitted : env.database.Admitted) (layout : Layout db unshared tables infos width joins)
    {steps : List JoinStep} (joined : steps.map (fun s => (s.kind, s.plan)) = joins)
    {row : List Stored} (member : row ∈ (joinedRows steps env).items) :
    row.length = width ∧
      List.Forall₂ (SourceTable.Present env.database row) tables infos := by
  induction layout generalizing steps row with
  | nil =>
      obtain rfl := List.map_eq_nil_iff.1 joined
      obtain rfl := List.mem_singleton.1 member
      exact ⟨rfl, .nil⟩
  | @snoc tables infos width joins name asName kind p info names before means single _ ih =>
      obtain ⟨steps, last, rfl, former, one⟩ := List.map_eq_append_iff.1 joined
      obtain ⟨step, rfl, one⟩ := List.map_eq_singleton_iff.1 one
      cases one
      cases steps with
      | nil =>
          cases former
          obtain ⟨rfl, rfl, rfl⟩ := before.eq_nil rfl
          have member : row ∈ (step.plan.rows env).items := Run.mem_filterEval member
          obtain ⟨length, here⟩ :=
            present_last same admitted means single member [] step.kind.left names
          refine ⟨length.trans (Nat.zero_add _).symm, ?_⟩
          cases step.kind.right <;> exact .cons here .nil
      | cons first steps =>
          have member : row ∈ (runJoin env first.plan.width
              ((first.plan.rows env).filterEval fun row =>
                allHold first.conditions (env.push ⟨row, []⟩)) (steps ++ [step])).items := member
          rw [runJoin_append] at member
          have wide : first.plan.width + total (steps.map (·.plan.width)) = width := by
            rw [before.width_eq, ← former]
            simp [Function.comp_def]
          rw [wide] at member
          exact present_joinRows same admitted before means single names
            (fun l inside => ih former inside) (Run.mem_gather member)

/-! How sources are arranged. -/

theorem arrange_cons {r : Resolver} {scope : Scope} {plan : Sql.Joined → Planner SourcePlan}
    {j : Sql.Joined} {js : List Sql.Joined} {infos' : List SourceInfo} {parts : List JoinPart}
    {s t : List AggregateCall}
    (found : Plans (arrange r scope plan infos width (j :: js)) s (infos', parts) t) :
    ∃ p names part rest u w, Plans (plan j) s p u ∧
      Plans (arrange r scope plan (infos ++ (p.infos.map (shift width)).map (markShared names))
        (width + p.width) js) w (infos', rest) t ∧
      parts = part :: rest ∧ part.kind = j.kind ∧ part.plan = p ∧
      (j.isPlain = true → names = []) := by
  obtain ⟨kind, source, condition, written⟩ := j
  obtain ⟨p, u, first, found⟩ := plans_bind.1 found
  obtain ⟨shared, _, _, found⟩ := plans_bind.1 found
  obtain ⟨⟨infos, rest⟩, _, others, last⟩ := plans_bind.1 found
  obtain ⟨same, rfl⟩ := plans_pure.1 last
  cases same
  refine ⟨p, _, _, rest, u, _, first, others, rfl, rfl, rfl, ?_⟩
  intro plain
  obtain ⟨unnatural, none⟩ := Bool.and_eq_true_iff.1 plain
  rw [if_neg (by simpa using unnatural)]
  exact List.isEmpty_iff.1 none

/-- A table that is added to the ones before it. -/
theorem collect_cons {done current tables : List SourceTable} {j : Sql.Joined}
    {js : List Sql.Joined}
    (collected : SelectSources.collect done current (j :: js) = some tables) :
    ∃ name asName done' current', j.source = .table name asName ∧
      SelectSources.collect done' current' js = some tables ∧
      (done = [] ∨ j.kind.right = false → (j.kind.comma = true → j.kind.right = false) →
        done' ++ current' =
          (if j.kind.right then SelectSources.markOuter (done ++ current) else done ++ current) ++
            [⟨name.name, asName, j.kind.left⟩]) ∧
      (j.kind.comma = false → done' = done) := by
  obtain ⟨kind, source, condition, names⟩ := j
  unfold SelectSources.collect at collected
  split at collected
  · rename_i name asName
    dsimp only at collected
    split at collected
    · rename_i comma
      refine ⟨name, asName, _, _, rfl, collected, ?_, ?_⟩
      · intro _ left
        rw [if_neg (by simpa [Sql.Joined.kind] using left comma)]
        rfl
      · intro other
        exact absurd (comma.symm.trans other) (by decide)
    · refine ⟨name, asName, _, _, rfl, collected, ?_, fun _ => rfl⟩
      intro first _
      rw [← List.append_assoc]
      congr 1
      rcases first with rfl | left
      · rfl
      · have left : kind.right = false := left
        simp [Sql.Joined.kind, left]
  · cases collected

theorem arranged {depth levels : Nat} {scope : Scope} {done current : List SourceTable}
    {js : List Sql.Joined} {infos' : List SourceInfo} {parts : List JoinPart}
    {s t : List AggregateCall} (plain : scope.common = [])
    (layout : Layout scope.database unshared (done ++ current) infos width joins)
    (found : Plans (arrange (Resolver.at_ depth) scope
      (resolve (Resolver.at_ depth) scope (levels + 1)) infos width js) s (infos', parts) t)
    (collected : SelectSources.collect done current js = some tables)
    (behind : done ≠ [] → ∀ j ∈ js, j.kind.right = false)
    (after : ∀ j ∈ js.dropWhile (!·.kind.comma), j.kind.right = false)
    (alone : unshared → ∀ j ∈ js, j.isPlain = true) :
    ∃ width', Layout scope.database unshared tables infos' width'
      (joins ++ parts.map fun p => (p.kind, p.plan)) := by
  induction js generalizing done current infos width joins parts s with
  | nil =>
      obtain ⟨same, _⟩ := plans_pure.1 found
      cases same
      cases collected
      rw [List.map_nil, List.append_nil]
      exact ⟨width, layout⟩
  | cons j js ih =>
      obtain ⟨p, names, part, rest, u, w, first, others, rfl, kind, rfl, none⟩ :=
        arrange_cons found
      obtain ⟨name, asName, done', current', source, later, added, kept⟩ := collect_cons collected
      have started : j.kind.comma = true → ∀ x ∈ j :: js, x.kind.right = false := by
        intro comma
        rw [List.dropWhile_cons_of_neg (by simp [comma])] at after
        exact after
      have means : Means scope.database name.name asName part.plan := by
        obtain ⟨_, _, _, _⟩ := j
        cases source
        exact ofName_means plain first
      obtain ⟨info, single, _⟩ := means.infos
      have next := @snoc _ _ _ _ _ _ _ _ part.kind _ _ names layout means single
        fun plain => none (alone plain j (.head js))
      have first : done = [] ∨ j.kind.right = false := by
        by_cases none : done = []
        · exact .inl none
        · exact .inr (behind none j (.head js))
      rw [kind, ← added first fun comma => started comma j (.head js)] at next
      rw [single, List.map_singleton, List.map_singleton] at others
      have behind' : done' ≠ [] → ∀ x ∈ js, x.kind.right = false := by
        intro some_ x member
        cases comma : j.kind.comma with
        | true => exact started comma x (.tail j member)
        | false =>
            rw [kept comma] at some_
            exact behind some_ x (.tail j member)
      have after' : ∀ x ∈ js.dropWhile (!·.kind.comma), x.kind.right = false := by
        cases comma : j.kind.comma with
        | true =>
            intro x member
            exact started comma x (.tail j ((List.dropWhile_sublist _).subset member))
        | false =>
            rw [List.dropWhile_cons_of_pos (by simp [comma])] at after
            exact after
      obtain ⟨width', whole⟩ := ih next others later behind' after'
        fun plain x member => alone plain x (.tail j member)
      rw [List.append_assoc, List.singleton_append, ← kind] at whole
      exact ⟨width', whole⟩

end Layout

end Source

end SqlUnits
