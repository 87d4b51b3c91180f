import SqlUnits.Access.Nullability
import SqlUnits.Proofs.Access.Layout
/-!
Columns that are never missing. What is known of a column holds of every row, as the column is
found where the query reads it, and what a table forbids is missing in none of its rows.
-/

namespace SqlUnits

/-! Lists of results that are traced part by part. -/

/-- Traced parts of a list. They are no longer than what they stand for, or never shorter; where
they are as long, their elements belong together. -/
structure Lined (below : Bool) (R : α → β → Prop) (as : List α) (bs : List β) : Prop where
  short : below = true → as.length ≤ bs.length
  long : below = false → bs.length ≤ as.length
  pairs : as.length = bs.length → List.Forall₂ R as bs

namespace Lined

variable {below : Bool} {R : α → β → Prop}

theorem nil : Lined below R [] [] :=
  ⟨fun _ => le_refl _, fun _ => le_refl _, fun _ => .nil⟩

theorem single {a : α} {b : β} (one : R a b) : Lined below R [a] [b] :=
  ⟨fun _ => le_refl _, fun _ => le_refl _, fun _ => .cons one .nil⟩

theorem longer (a : α) : Lined false R [a] ([] : List β) :=
  ⟨nofun, fun _ => Nat.zero_le _, nofun⟩

theorem shorter (bs : List β) : Lined true R ([] : List α) bs := by
  refine ⟨fun _ => Nat.zero_le _, nofun, ?_⟩
  intro same
  rw [List.eq_nil_of_length_eq_zero same.symm]
  exact .nil

theorem append {as more : List α} {bs others : List β} (first : Lined below R as bs)
    (second : Lined below R more others) : Lined below R (as ++ more) (bs ++ others) := by
  constructor
  · intro is
    rw [List.length_append, List.length_append]
    exact Nat.add_le_add (first.short is) (second.short is)
  · intro is
    rw [List.length_append, List.length_append]
    exact Nat.add_le_add (first.long is) (second.long is)
  · intro same
    rw [List.length_append, List.length_append] at same
    have both : as.length = bs.length ∧ more.length = others.length := by
      cases below with
      | true =>
          have short := first.short rfl
          have short' := second.short rfl
          omega
      | false =>
          have long := first.long rfl
          have long' := second.long rfl
          omega
    exact List.rel_append (first.pairs both.1) (second.pairs both.2)

theorem flatten {ass : List (List α)} {bss : List (List β)}
    (each : List.Forall₂ (Lined below R) ass bss) : Lined below R ass.flatten bss.flatten := by
  induction each with
  | nil => exact nil
  | cons one _ ih => exact one.append ih

/-- The columns of a source, in front of which others are read. -/
theorem columns {R : Option ColumnOrigin → Query.Result → Prop} {outer : Bool}
    {facts : List ColumnFact} {columns : List SourceColumn} {start : Nat} (k : Nat)
    (length : facts.length = columns.length)
    (unshared : below = true → ∀ c ∈ columns, c.shared = false)
    (each : ∀ (j : Nat) fact c, facts[j]? = some fact →
      R (some ⟨fact, outer⟩)
        { term := (⟨0, start + (k + j), c⟩ : Scope.Found).term, name := c.name }) :
    Lined below R (facts.map fun fact => some ⟨fact, outer⟩)
      ((columns.zipIdx k).filterMap fun (c, i) =>
        if c.shared then none
        else some { term := (⟨0, start + i, c⟩ : Scope.Found).term, name := c.name }) := by
  induction columns generalizing facts k with
  | nil =>
      obtain rfl := List.eq_nil_of_length_eq_zero length
      exact .nil
  | cons c columns ih =>
      cases facts with
      | nil => cases length
      | cons fact facts =>
          have later := @ih facts (k + 1) (Nat.succ.inj length)
            (fun is x member => unshared is x (.tail c member)) (by
              intro j fact x there
              have place : k + (j + 1) = k + 1 + j := by omega
              exact place ▸ each (j + 1) fact x there)
          rw [List.map_cons, List.zipIdx_cons, List.filterMap_cons]
          dsimp only
          cases shared : c.shared with
          | true =>
              cases below with
              | true => exact absurd (unshared rfl c (.head columns)) (by simp [shared])
              | false => exact (Lined.longer _).append later
          | false => exact (Lined.single (each 0 fact c rfl)).append later

end Lined

theorem filter_flatMap (p : α → Bool) (f : α → List β) (as : List α) :
    (as.filter p).flatMap f = as.flatMap fun a => if p a then f a else [] := by
  induction as with
  | nil => rfl
  | cons a as ih =>
      cases holds : p a <;> simp [holds, ih]

/-! Cells that are never missing. -/

/-- A column that is the whole key of a table, declared `INTEGER`, is its row number, or else it
forbids missing values. -/
def Table.NumbersKey (t : Table) : Prop :=
  ∀ i, (inside : i < t.columns.length) → t.columns[i].keyPart > 0 →
    (t.columns.filter fun c => c.keyPart > 0).length = 1 →
    Text.sameLetters (t.columns[i].declType.getD "") "INTEGER" = true →
    t.columns[i].notNull.isSome = true ∨ t.rowidColumn = some i

instance (t : Table) : Decidable t.NumbersKey :=
  inferInstanceAs (Decidable (∀ i, (inside : i < t.columns.length) → _ → _ → _ → _ ∨ _))

/-- A place of joined rows where no value is missing. -/
def Filled (db : Database) (tables : List SourceTable) (infos : List SourceInfo) (index : Nat) :
    Prop :=
  ∀ row, List.Forall₂ (SourceTable.Present db row) tables infos →
    (row[index]?).getD .null ≠ .null

section

variable {db now : Database} {tables : List SourceTable} {infos : List SourceInfo}
  {t : SourceTable} {s : SourceInfo} {table : Table}

theorem Filled.ofRow (same : db.SameSchema now) (pair : (t, s) ∈ tables.zip infos)
    (inner : t.outer = false) (known : db.table? t.name = some table) {j : Nat}
    (cell : ∀ current, now.table? t.name = some current → current.bare = table.bare →
      ∀ r ∈ current.rows, j ≤ r.values.length ∧ ((Source.tableRow r)[j]?).getD .null ≠ .null) :
    Filled now tables infos (s.start + j) := by
  intro row shown
  have schema := same.table? t.name
  rw [known] at schema
  obtain ⟨current, found, bare⟩ := Option.map_eq_some_iff.1 schema.symm
  obtain ⟨r, inside, cells⟩ := (List.forall₂_iff_zip.1 shown).2 pair inner current found
  obtain ⟨low, some_⟩ := cell current found bare r inside
  rw [cells j low]
  exact some_

/-- A column that is known never to be missing is filled, unless its table is optional. -/
theorem Filled.ofFact (same : db.SameSchema now) (admitted : now.Admitted)
    (pair : (t, s) ∈ tables.zip infos) (inner : t.outer = false)
    (known : db.table? t.name = some table) (numbers : table.NumbersKey) {j : Nat}
    {fact : ColumnFact} (there : (ColumnFact.ofTable table)[j]? = some fact)
    (never : fact.isNotNull = true) : Filled now tables infos (s.start + j) := by
  apply ofRow same pair inner known
  intro current found bare r inside
  have admits := admitted current (List.mem_of_find?_eq_some found) r inside
  have columns := Table.columns_of_bare bare
  simp only [ColumnFact.ofTable, List.getElem?_map, Option.map_eq_some_iff] at there
  obtain ⟨c, at_, rfl⟩ := there
  obtain ⟨inside', rfl⟩ := List.getElem?_eq_some_iff.1 at_
  have low : j < r.values.length := by
    rw [admits.width, columns]
    exact inside'
  refine ⟨low.le, ?_⟩
  rw [Source.tableRow, List.getElem?_append_left low]
  have either : table.columns[j].notNull.isSome = true ∨ table.rowidColumn = some j := by
    simp only [Bool.or_eq_true, Bool.and_eq_true, decide_eq_true_eq, beq_iff_eq] at never
    rcases never with forbidden | ⟨⟨key, single⟩, integer⟩
    · exact .inl forbidden
    · exact numbers j inside' key single integer
  rcases either with forbidden | isNumber
  · have value := admits.notNull j _ (by rw [columns, at_]) forbidden
    rw [List.getElem?_eq_getElem low] at value ⊢
    intro missing
    exact value (congrArg some missing)
  · rw [admits.number j ((Table.rowidColumn_of_bare bare).trans isNumber)]
    simp

/-- The row number of a table that is not optional is never missing. -/
theorem Filled.ofNumber (same : db.SameSchema now) (admitted : now.Admitted)
    (pair : (t, s) ∈ tables.zip infos) (inner : t.outer = false)
    (known : db.table? t.name = some table) :
    Filled now tables infos (s.start + table.columns.length) := by
  apply ofRow same pair inner known
  intro current found bare r inside
  have admits := admitted current (List.mem_of_find?_eq_some found) r inside
  rw [← Table.columns_of_bare bare, ← admits.width]
  refine ⟨le_refl _, ?_⟩
  rw [Source.tableRow, List.getElem?_append_right (le_refl _), Nat.sub_self]
  simp

end

/-! Origins and results. -/

/-- What the origin of a result says holds of it: it is read from a place that is filled. -/
def ColumnOrigin.Holds (now : Database) (tables : List SourceTable) (infos : List SourceInfo)
    (origin : Option ColumnOrigin) (r : Query.Result) : Prop :=
  ∀ o, origin = some o → o.outer = false → o.fact.isNotNull = true →
    r.term.declType.isSome = true →
    ∃ f : Scope.Found, r.term = f.term ∧ f.level = 0 ∧ Filled now tables infos f.index

/-- Sources that are traced, with what they say of every column holding in a database. -/
structure Tracing (db now : Database) (tables : List SourceTable) (infos : List SourceInfo) :
    Prop where
  traced : List.Forall₂ (SourceTable.Traced db) tables infos
  same : db.SameSchema now
  admitted : now.Admitted
  numbers : ∀ t ∈ tables, ∀ table ∈ db.table? t.name, table.NumbersKey

namespace Tracing

variable {db now : Database} {tables : List SourceTable} {infos : List SourceInfo}
  {below : Bool}

theorem located (tracing : Tracing db now tables infos) {t : SourceTable} {s : SourceInfo}
    (pair : (t, s) ∈ tables.zip infos) {table : Table} (known : db.table? t.name = some table) :
    t.Located table s :=
  (List.forall₂_iff_zip.1 tracing.traced).2 pair table known

/-- The columns that a source has, as its table is known to have them. -/
theorem allOf_lined (tracing : Tracing db now tables infos) {t : SourceTable} {s other : SourceInfo}
    (pair : (t, s) ∈ tables.zip infos)
    (known : below = false → (db.table? t.name).isSome = true)
    (start : other.start = s.start) (length : other.columns.length = s.columns.length)
    (unshared : below = true → ∀ c ∈ other.columns, c.shared = false) :
    Lined below (ColumnOrigin.Holds now tables infos)
      ((ColumnFact.ofName db t.name).map fun c => some ⟨c, t.outer⟩) (Query.allOf other) := by
  cases found : db.table? t.name with
  | none =>
      have facts : ColumnFact.ofName db t.name = [] := by simp [ColumnFact.ofName, found]
      rw [facts]
      cases below with
      | true => exact .shorter _
      | false => simp [found] at known
  | some table =>
      have facts : ColumnFact.ofName db t.name = ColumnFact.ofTable table := by
        simp [ColumnFact.ofName, found]
      have located := tracing.located pair found
      rw [facts]
      apply Lined.columns 0
      · have names := congrArg List.length located.names
        simpa [ColumnFact.ofTable, length] using names.symm
      · exact unshared
      · intro j fact c there o same inner never _
        cases same
        refine ⟨_, rfl, rfl, ?_⟩
        change Filled now tables infos (other.start + (0 + j))
        rw [Nat.zero_add, start]
        exact Filled.ofFact tracing.same tracing.admitted pair inner found
          (tracing.numbers t (List.of_mem_zip pair).1 table found) there never

/-! Items that stand for the columns of tables. -/

theorem flatMap_lined (tracing : Tracing db now tables infos)
    {f : SourceTable → List (Option ColumnOrigin)} {g : SourceInfo → List Query.Result}
    (each : ∀ t s, (t, s) ∈ tables.zip infos →
      Lined below (ColumnOrigin.Holds now tables infos) (f t) (g s)) :
    Lined below (ColumnOrigin.Holds now tables infos) (tables.flatMap f) (infos.flatMap g) := by
  rw [List.flatMap_def, List.flatMap_def]
  apply Lined.flatten
  rw [List.forall₂_map_left_iff, List.forall₂_map_right_iff]
  exact List.forall₂_iff_zip.2 ⟨tracing.traced.length_eq, fun pair => each _ _ pair⟩

/-- A table answers to the name of its source. -/
theorem answersTo_eq (tracing : Tracing db now tables infos) {t : SourceTable} {s : SourceInfo}
    (pair : (t, s) ∈ tables.zip infos) {table : Table} (known : db.table? t.name = some table)
    (qualifier : String) : t.answersTo qualifier = Text.sameLetters s.name qualifier := by
  rw [SourceTable.answersTo, (tracing.located pair known).name]
  cases t.asName with
  | some _ => rfl
  | none =>
      rw [Option.getD_none, Option.getD_none]
      exact (Text.sameLetters_congr (Database.table?_name known) qualifier).symm

theorem all_answersTo (tracing : Tracing db now tables infos) {t : SourceTable} {s : SourceInfo}
    (pair : (t, s) ∈ tables.zip infos) {table : Table} (known : db.table? t.name = some table)
    (qualifier : Option String) :
    qualifier.all t.answersTo = qualifier.all (Text.sameLetters s.name) := by
  congr 1
  funext other
  exact tracing.answersTo_eq pair known other

/-- What a list may be traced by: columns that no other source shares, or tables that are known. -/
structure Guarded (db : Database) (tables : List SourceTable) (infos : List SourceInfo)
    (below : Bool) : Prop where
  unshared : below = true → ∀ s ∈ infos, ∀ c ∈ s.columns, c.shared = false
  known : below = false → ∀ t ∈ tables, (db.table? t.name).isSome = true

theorem all_lined (tracing : Tracing db now tables infos)
    (guarded : Guarded db tables infos below) :
    Lined below (ColumnOrigin.Holds now tables infos)
      (tables.flatMap fun t => (ColumnFact.ofName db t.name).map fun c => some ⟨c, t.outer⟩)
      (infos.flatMap Query.allOf) := by
  apply tracing.flatMap_lined
  intro t s pair
  have inside := List.of_mem_zip pair
  exact tracing.allOf_lined pair (fun is => guarded.known is t inside.1) rfl rfl
    (fun is => guarded.unshared is s inside.2)

theorem named_lined (tracing : Tracing db now tables infos)
    (guarded : Guarded db tables infos below) (qualifier : String) :
    Lined below (ColumnOrigin.Holds now tables infos)
      ((tables.filter (·.answersTo qualifier)).flatMap fun t =>
        (ColumnFact.ofName db t.name).map fun c => some ⟨c, t.outer⟩)
      ((infos.filter fun s => Text.sameLetters s.name qualifier).flatMap fun s =>
        Query.allOf { s with columns := s.columns.map fun c => { c with shared := false } }) := by
  rw [filter_flatMap, filter_flatMap]
  apply tracing.flatMap_lined
  intro t s pair
  have whole := @allOf_lined _ _ _ _ below tracing t s
    { s with columns := s.columns.map fun c => { c with shared := false } } pair
    (fun is => guarded.known is t (List.of_mem_zip pair).1) rfl (List.length_map _) (by
      intro _ c member
      obtain ⟨_, _, rfl⟩ := List.mem_map.1 member
      rfl)
  cases found : db.table? t.name with
  | some table =>
      rw [tracing.answersTo_eq pair found]
      cases Text.sameLetters s.name qualifier with
      | true => exact whole
      | false => exact .nil
  | none =>
      cases below with
      | false =>
          have known := guarded.known rfl t (List.of_mem_zip pair).1
          rw [found] at known
          cases known
      | true =>
          have none : ColumnFact.ofName db t.name = [] := by simp [ColumnFact.ofName, found]
          rw [none, List.map_nil, ite_self]
          exact .shorter _

end Tracing

end SqlUnits
