import SqlUnits.Proofs.Database.Query
/-!
The rows of joined sources. A join puts a row of each source behind those of the ones before it,
and missing values in the place of a source that has none.
-/

namespace SqlUnits

theorem Text.sameLetters_iff {s t : String} :
    sameLetters s t = true ↔ lowerString s = lowerString t := by
  simp [sameLetters]

theorem Text.sameLetters_symm {s t : String} (same : sameLetters s t = true) :
    sameLetters t s = true :=
  sameLetters_iff.2 (sameLetters_iff.1 same).symm

theorem Text.sameLetters_congr {s t : String} (same : sameLetters s t = true) (name : String) :
    sameLetters s name = sameLetters t name := by
  unfold sameLetters
  rw [sameLetters_iff.1 same]

/-! Schemas. -/

/-- A table without what it contains. -/
def Table.bare (t : Table) : Table :=
  { t with rows := [], lastId := 0 }

@[simp] theorem Table.bare_columns (t : Table) : t.bare.columns = t.columns := rfl

@[simp] theorem Table.bare_rowidColumn (t : Table) : t.bare.rowidColumn = t.rowidColumn := rfl

theorem Table.columns_of_bare {t u : Table} (same : t.bare = u.bare) : t.columns = u.columns := by
  rw [← t.bare_columns, same, bare_columns]

theorem Table.rowidColumn_of_bare {t u : Table} (same : t.bare = u.bare) :
    t.rowidColumn = u.rowidColumn := by
  rw [← t.bare_rowidColumn, same, bare_rowidColumn]

/-- Databases that differ in the contents of tables at most. -/
structure Database.SameSchema (db db' : Database) : Prop where
  tables : db.tables.map Table.bare = db'.tables.map Table.bare
  views : db.views = db'.views
  indexes : db.indexes = db'.indexes

theorem Database.table?_congr (db : Database) {name other : String}
    (same : Text.sameLetters name other = true) : db.table? name = db.table? other := by
  unfold table?
  congr 1
  funext t
  unfold Text.sameLetters
  rw [Text.sameLetters_iff.1 same]

theorem Database.table?_name {db : Database} {name : String} {t : Table}
    (found : db.table? name = some t) : Text.sameLetters t.name name = true := by
  simpa using List.find?_some found

theorem Database.SameSchema.table? {db db' : Database} (same : db.SameSchema db') (name : String) :
    (db.table? name).map Table.bare = (db'.table? name).map Table.bare := by
  have bare : ∀ tables : List Table,
      (tables.find? fun t => Text.sameLetters t.name name).map Table.bare =
        (tables.map Table.bare).find? fun t => Text.sameLetters t.name name := by
    intro tables
    rw [List.find?_map]
    rfl
  unfold Database.table?
  rw [bare, bare, same.tables]

namespace Sql.Joined

def kind : Joined → JoinKind
  | .mk kind _ _ _ => kind

def source : Joined → Source
  | .mk _ source _ _ => source

/-- Whether the columns that it shares with those before it are named, or found by name. -/
def isPlain : Joined → Bool
  | .mk kind _ _ names => !kind.natural && names.isEmpty

end Sql.Joined

/-! Joined rows. -/

namespace Source

open Sql (Joined JoinKind)

variable {m : List Stored}

theorem mem_matches {holds : List Stored → Eval Bool} {right : List (List Stored)}
    {left : List Stored} {i : Nat} (member : (i, m) ∈ (matches_ holds right left).items) :
    ∃ row ∈ right, m = left ++ row := by
  have inside := Run.mem_filterEval member
  rw [Run.items_ofList] at inside
  obtain ⟨⟨row, _⟩, among, same⟩ := List.mem_map.1 inside
  cases same
  exact ⟨row, (List.mem_zipIdx among).2.2 ▸ List.getElem_mem _, rfl⟩

/-- A joined row has a row of both sides, or of one that may stand alone. -/
theorem mem_joinRows {kind : JoinKind} {leftWidth rightWidth : Nat}
    {holds : List Stored → Eval Bool} {left : Run (List Stored)} {right : List (List Stored)}
    (member : m ∈ (joinRows kind leftWidth rightWidth holds left right).items) :
    (∃ l ∈ left.items, ∃ row ∈ right, m = l ++ row) ∨
      (kind.left = true ∧ ∃ l ∈ left.items, m = l ++ List.replicate rightWidth .null) ∨
      (kind.right = true ∧ ∃ row ∈ right, m = List.replicate leftWidth .null ++ row) := by
  unfold joinRows at member
  dsimp only at member
  have joined : ∀ {m}, m ∈ ((left.bind fun row =>
      let found := (matches_ holds right row).bind fun pair => Run.ofList [(some pair.1, pair.2)]
      if kind.left && found.items.isEmpty then
        found.append (.ofList [(none, row ++ List.replicate rightWidth .null)])
      else found).bind fun m => Run.ofList [m.2]).items →
      (∃ l ∈ left.items, ∃ row ∈ right, m = l ++ row) ∨
        (kind.left = true ∧ ∃ l ∈ left.items, m = l ++ List.replicate rightWidth .null) := by
    intro m member
    obtain ⟨⟨place, values⟩, inside, single⟩ := Run.mem_bind member
    obtain rfl := List.mem_singleton.1 single
    obtain ⟨l, known, inside⟩ := Run.mem_bind inside
    have matched : ∀ {p : Option Nat × List Stored},
        p ∈ ((matches_ holds right l).bind fun pair =>
          Run.ofList [(some pair.1, pair.2)]).items →
        ∃ row ∈ right, p.2 = l ++ row := by
      intro p found
      obtain ⟨⟨i, m⟩, among, single⟩ := Run.mem_bind found
      obtain rfl := List.mem_singleton.1 single
      exact mem_matches among
    dsimp only at inside
    split at inside
    · rename_i alone
      rcases Run.mem_append inside with found | absent
      · obtain ⟨row, there, same⟩ := matched found
        exact .inl ⟨l, known, row, there, same⟩
      · cases List.mem_singleton.1 absent
        exact .inr ⟨(Bool.and_eq_true_iff.1 alone).1, l, known, rfl⟩
    · obtain ⟨row, there, same⟩ := matched inside
      exact .inl ⟨l, known, row, there, same⟩
  split at member
  · rename_i isRight
    rcases Run.mem_append member with found | rest
    · exact (joined found).imp id .inl
    · rw [Run.items_ofList] at rest
      obtain ⟨⟨row, i⟩, among, rfl⟩ := List.mem_map.1 rest
      have there := (List.mem_zipIdx (List.mem_filter.1 among).1).2.2
      exact .inr (.inr ⟨isRight, row, there ▸ List.getElem_mem _, rfl⟩)
  · exact (joined member).imp id .inl

/-! What names stand for. -/

/-- A source of rows that all have its width. -/
def Fills (p : SourcePlan) : Prop :=
  ∀ env, ∀ row ∈ (p.rows env).items, row.length = p.width

/-- What a name among the sources of a query stands for: a table, or something that is none. -/
inductive Means (db : Database) (name : String) (asName : Option String) : SourcePlan → Prop
  | table {t : Table} : db.table? name = some t → Means db name asName (ofTable asName t)
  | other {info : SourceInfo} {p : SourcePlan} : db.table? name = none → p.infos = [info] →
      info.start = 0 → (∀ c ∈ info.columns, c.shared = false) → Fills p → Means db name asName p

variable {scope : Scope} {s t : List AggregateCall}

theorem query_fills {depth : Nat} {q : Sql.Select} {plan : QueryPlan}
    (found : Plans ((Resolver.at_ depth).query scope q) s plan t) : plan.Fills := by
  cases depth with
  | zero => exact (not_plans_refuse found).elim
  | succ depth => exact Query.resolve_fills found

theorem innerQuery_fills {depth : Nat} {q : Sql.Select} {plan : QueryPlan}
    (found : Plans (Expression.innerQuery (Resolver.at_ depth) scope q) s plan t) :
    plan.Fills := by
  obtain ⟨⟨inner, calls⟩, _, resolved, last⟩ := plans_bind.1 found
  obtain ⟨rfl, _⟩ := plans_pure.1 last
  exact query_fills (plans_separately.1 resolved).1

theorem plans_withoutOffset {p : Planner α} {a : α} :
    Plans (withoutOffset p) s a t ↔ Plans p s a t := by
  unfold Plans withoutOffset
  dsimp only [StateT.run]
  cases p s <;> simp

theorem ofQuery_means {db : Database} {name : String} {asName : Option String}
    (none : db.table? name = none) (called : String) (names : List String) {q : QueryPlan}
    (fills : q.Fills) : Means db name asName (ofQuery called names q) := by
  refine .other none rfl rfl ?_ fills
  intro c member
  obtain ⟨pair, _, rfl⟩ := List.mem_map.1 member
  rfl

theorem ofName_means {depth : Nat} {name : Sql.TableName} {asName : Option String}
    {p : SourcePlan} (plain : scope.common = [])
    (found : Plans (ofName (Resolver.at_ depth) scope name asName) s p t) :
    Means scope.database name.name asName p := by
  unfold ofName at found
  simp only [plain, common?, ite_self] at found
  split at found
  · exact (not_plans_refuse found).elim
  · split at found
    · rename_i table known
      obtain ⟨rfl, _⟩ := plans_pure.1 found
      exact .table known
    · rename_i v none _
      unfold ofView at found
      obtain ⟨q, _, inner, found⟩ := plans_bind.1 found
      have fills := innerQuery_fills (plans_withoutOffset.1 inner)
      split at found
      · exact (not_plans_refuse found).elim
      · obtain ⟨rfl, _⟩ := plans_pure.1 found
        exact ofQuery_means none _ _ fills
    · rename_i none _
      split at found
      · obtain ⟨rfl, _⟩ := plans_pure.1 found
        refine .other none rfl rfl ?_ ?_
        · intro c member
          obtain ⟨pair, _, rfl⟩ := List.mem_map.1 member
          rfl
        · intro env row member
          have member : row ∈ (Run.ofList (catalogRows env.database)).items := member
          rw [Run.items_ofList] at member
          simp only [catalogRows, List.mem_append, List.mem_map] at member
          rcases member with (⟨_, _, rfl⟩ | ⟨_, _, rfl⟩) | ⟨_, _, rfl⟩ <;> rfl
      · exact (not_plans_refuse found).elim

end Source

end SqlUnits
