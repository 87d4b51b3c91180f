import SqlUnits.Proofs.Access.Origin
/-!
What names mean. A name is traced to the one table that has it, and the query reads it there: no
other column can be meant, as one that is left out stands for the same value as another.
-/

namespace SqlUnits

theorem eq_of_filterMap {f : α → Option β} {as : List α} {b : β} (single : as.filterMap f = [b])
    {a c : α} (first : a ∈ as) (second : c ∈ as) (kept : (f a).isSome = true)
    (kept' : (f c).isSome = true) : a = c := by
  obtain ⟨before, x, after, rfl, none, _, none'⟩ := List.filterMap_eq_cons_iff.1 single
  have only : ∀ y ∈ before ++ x :: after, (f y).isSome = true → y = x := by
    intro y member some_
    rcases List.mem_append.1 member with early | late
    · simp [none y early] at some_
    · rcases List.mem_cons.1 late with rfl | late
      · rfl
      · simp [List.filterMap_eq_nil_iff.1 none' y late] at some_
  rw [only a first kept, only c second kept']

namespace Scope

variable {infos : List SourceInfo}

theorem mem_columnsNamed {level : Nat} {name : String} {qualified : Bool} {s : SourceInfo}
    {f : Found} : f ∈ columnsNamed level name qualified s ↔
      ∃ i c, s.columns[i]? = some c ∧ Text.sameLetters c.name name = true ∧
        (qualified = true ∨ c.shared = false) ∧ f = ⟨level, s.start + i, c⟩ := by
  simp only [columnsNamed, List.mem_filterMap]
  constructor
  · rintro ⟨⟨c, i⟩, member, kept⟩
    dsimp only at kept
    split at kept
    · rename_i named
      cases kept
      obtain ⟨same, plain⟩ := Bool.and_eq_true_iff.1 named
      exact ⟨i, c, List.mem_zipIdx_iff_getElem?.1 member, same, by simpa using plain, rfl⟩
    · cases kept
  · rintro ⟨i, c, there, same, plain, rfl⟩
    refine ⟨(c, i), List.mem_zipIdx_iff_getElem?.2 there, ?_⟩
    have plain : (qualified || !c.shared) = true := by simpa using plain
    exact if_pos (Bool.and_eq_true_iff.2 ⟨same, plain⟩)

theorem sourcesNamed_subset {qualifier : List String} {s : SourceInfo}
    (member : s ∈ sourcesNamed qualifier.reverse infos) : s ∈ infos := by
  unfold sourcesNamed at member
  rw [List.reverse_reverse] at member
  split at member
  · exact member
  · exact (List.mem_filter.1 member).1
  · split at member
    · exact (List.mem_filter.1 member).1
    · cases member

theorem mem_sourcesNamed {qualifier : List String}
    (some_ : sourcesNamed qualifier.reverse infos ≠ []) {s : SourceInfo}
    (member : s ∈ infos)
    (named : qualifier.head?.all (Text.sameLetters s.name) = true) :
    s ∈ sourcesNamed qualifier.reverse infos := by
  unfold sourcesNamed at some_ ⊢
  rw [List.reverse_reverse] at some_ ⊢
  split at some_
  · exact member
  · exact List.mem_filter.2 ⟨member, named⟩
  · split at some_
    · rename_i main
      rw [if_pos main]
      exact List.mem_filter.2 ⟨member, named⟩
    · exact absurd rfl some_

end Scope

namespace ColumnOrigin

variable {db : Database} {tables : List SourceTable} {t : SourceTable}

/-- The column of a table that a name means. -/
def inTable? (db : Database) (qualifier : Option String) (name : String) (t : SourceTable) :
    Option ColumnOrigin :=
  if qualifier.all t.answersTo then
    ((ColumnFact.ofName db t.name).find? fun c => Text.sameLetters c.name name).map (⟨·, t.outer⟩)
  else none

theorem resolve?_eq_some {qualifier : Option String} {name : String} {o : ColumnOrigin}
    (found : resolve? (tables.map fun t => ⟨t, ColumnFact.ofName db t.name⟩)
      qualifier name = some o) : tables.filterMap (inTable? db qualifier name) = [o] := by
  unfold resolve? at found
  rw [List.filterMap_filter, List.filterMap_map] at found
  dsimp only at found
  split at found
  · rename_i single
    cases found
    exact single
  · cases found

theorem inTable?_eq_some {qualifier : Option String} {name : String} {o : ColumnOrigin}
    (found : inTable? db qualifier name t = some o) :
    qualifier.all t.answersTo = true ∧ ∃ (table : Table) (j : Nat) (fact : ColumnFact),
      db.table? t.name = some table ∧ (ColumnFact.ofTable table)[j]? = some fact ∧
      Text.sameLetters fact.name name = true ∧ o = ⟨fact, t.outer⟩ := by
  unfold inTable? at found
  split at found
  · rename_i answers
    refine ⟨answers, ?_⟩
    obtain ⟨fact, first, rfl⟩ := Option.map_eq_some_iff.1 found
    cases known : db.table? t.name with
    | none => simp [ColumnFact.ofName, known] at first
    | some table =>
        have facts : ColumnFact.ofName db t.name = ColumnFact.ofTable table := by
          simp [ColumnFact.ofName, known]
        rw [facts] at first
        obtain ⟨j, there⟩ := List.mem_iff_getElem?.1 (List.mem_of_find?_eq_some first)
        exact ⟨table, j, fact, rfl, there, by simpa using List.find?_some first, rfl⟩
  · cases found

theorem inTable?_isSome {qualifier : Option String} {name : String}
    (answers : qualifier.all t.answersTo = true) {table : Table}
    (known : db.table? t.name = some table) {c : TableColumn} (member : c ∈ table.columns)
    (same : Text.sameLetters c.name name = true) :
    (inTable? db qualifier name t).isSome = true := by
  rw [inTable?, if_pos answers, Option.isSome_map, List.find?_isSome]
  simp only [ColumnFact.ofName, known, Option.map_some, Option.getD_some, ColumnFact.ofTable,
    List.mem_map]
  exact ⟨_, ⟨c, member, rfl⟩, same⟩

theorem ofItem_expr (traced : List TracedTable) (e : Sql.Expr) (asName : Option String)
    (text : String) :
    ∃ origin, ofItem traced (SelectSources.itemOf (.expr e asName text)) = [origin] ∧
      ∀ o, origin = some o → ∃ parts quoted offset name qualifier,
        e = .column parts quoted offset ∧ parts.reverse = name :: qualifier ∧
        resolve? traced qualifier.head? name = some o := by
  unfold SelectSources.itemOf
  split
  · rename_i parts quoted offset _ _ same
    cases same
    split
    · rename_i name written
      split
      · exact ⟨none, rfl, nofun⟩
      · refine ⟨_, rfl, ?_⟩
        intro o found
        exact ⟨parts, quoted, offset, name, [], rfl, written, found⟩
    · rename_i name qualifier more written
      refine ⟨_, rfl, ?_⟩
      intro o found
      exact ⟨parts, quoted, offset, name, qualifier :: more, rfl, written, found⟩
    · exact ⟨none, rfl, nofun⟩
  · exact ⟨none, rfl, nofun⟩
  · rename_i same
    cases same
  · rename_i same
    cases same

end ColumnOrigin

namespace Tracing

variable {db now : Database} {tables : List SourceTable} {infos : List SourceInfo} {below : Bool}
  {t : SourceTable} {s : SourceInfo} {table : Table}

/-- The column of a table that alone has a name, and the source of the table. -/
structure Meant (db : Database) (tables : List SourceTable) (infos : List SourceInfo)
    (qualifier : Option String) (name : String) (o : ColumnOrigin) (t : SourceTable)
    (s : SourceInfo) (table : Table) (j : Nat) : Prop where
  pair : (t, s) ∈ tables.zip infos
  known : db.table? t.name = some table
  outer : o.outer = t.outer
  fact : (ColumnFact.ofTable table)[j]? = some o.fact
  same : Text.sameLetters o.fact.name name = true
  named : qualifier.all (Text.sameLetters s.name) = true
  alone : ∀ t' s' table', (t', s') ∈ tables.zip infos → db.table? t'.name = some table' →
    qualifier.all (Text.sameLetters s'.name) = true →
    ∀ c ∈ table'.columns, Text.sameLetters c.name name = true → s' = s

theorem resolve?_meant (tracing : Tracing db now tables infos) {qualifier : Option String}
    {name : String} {o : ColumnOrigin}
    (found : ColumnOrigin.resolve? (tables.map fun t => ⟨t, ColumnFact.ofName db t.name⟩)
      qualifier name = some o) :
    ∃ t s table j, Meant db tables infos qualifier name o t s table j := by
  have single := ColumnOrigin.resolve?_eq_some found
  have firsts : (tables.zip infos).map Prod.fst = tables :=
    List.map_fst_zip tracing.traced.length_eq.le
  rw [← firsts, List.filterMap_map] at single
  obtain ⟨⟨t, s⟩, pair, isOrigin⟩ := List.mem_filterMap.1 (single ▸ List.mem_singleton_self o)
  obtain ⟨answers, table, j, fact, known, there, same, rfl⟩ :=
    ColumnOrigin.inTable?_eq_some isOrigin
  refine ⟨t, s, table, j, pair, known, rfl, there, same, ?_, ?_⟩
  · exact (tracing.all_answersTo pair known qualifier).symm.trans answers
  · intro t' s' table' pair' known' named c member called
    rw [← tracing.all_answersTo pair' known'] at named
    have some_ := ColumnOrigin.inTable?_isSome named known' member called
    have equal := eq_of_filterMap single pair' pair some_ (Option.isSome_of_eq_some isOrigin)
    exact congrArg Prod.snd equal

namespace Meant

variable {qualifier : Option String} {name : String} {o : ColumnOrigin} {j : Nat}

theorem filled (meant : Meant db tables infos qualifier name o t s table j)
    (tracing : Tracing db now tables infos) (inner : o.outer = false)
    (never : o.fact.isNotNull = true) : Filled now tables infos (s.start + j) :=
  Filled.ofFact tracing.same tracing.admitted meant.pair (meant.outer ▸ inner) meant.known
    (tracing.numbers t (List.of_mem_zip meant.pair).1 table meant.known) meant.fact never

theorem column (meant : Meant db tables infos qualifier name o t s table j)
    (located : t.Located table s) : ∃ c, s.columns[j]? = some c ∧ c.name = o.fact.name := by
  obtain ⟨column, at_, fact⟩ : ∃ column, table.columns[j]? = some column ∧
      column.name = o.fact.name := by
    have there := meant.fact
    simp only [ColumnFact.ofTable, List.getElem?_map, Option.map_eq_some_iff] at there
    obtain ⟨column, at_, fact⟩ := there
    exact ⟨column, at_, congrArg ColumnFact.name fact⟩
  have names := congrArg (·[j]?) located.names
  simp only [List.getElem?_map, at_, Option.map_some] at names
  obtain ⟨c, there, called⟩ := Option.map_eq_some_iff.1 names
  exact ⟨c, there, called.trans fact⟩

/-- A name means no other column, as one that it would share is known to be named alike. -/
theorem eq_of_column (meant : Meant db tables infos qualifier name o t s table j)
    (tracing : Tracing db now tables infos) (guarded : Guarded db tables infos below)
    {c : SourceColumn} (there : s.columns[j]? = some c) (called : c.name = o.fact.name)
    (bare : qualifier = none) {s' : SourceInfo} (member : s' ∈ infos) {c' : SourceColumn}
    (inside : c' ∈ s'.columns) (named : Text.sameLetters c'.name name = true)
    (plain : c'.shared = false) : c.shared = false := by
  have here := List.mem_of_getElem? there
  cases below with
  | true => exact guarded.unshared rfl s (List.of_mem_zip meant.pair).2 c here
  | false =>
      have seconds : (tables.zip infos).map Prod.snd = infos :=
        List.map_snd_zip tracing.traced.length_eq.ge
      rw [← seconds] at member
      obtain ⟨⟨t', s'⟩, pair, rfl⟩ := List.mem_map.1 member
      have known := guarded.known rfl t' (List.of_mem_zip pair).1
      obtain ⟨table', known⟩ := Option.isSome_iff_exists.1 known
      have names : c'.name ∈ table'.columns.map (·.name) := by
        rw [← (tracing.located pair known).names]
        exact List.mem_map_of_mem inside
      obtain ⟨column, among, name_⟩ := List.mem_map.1 names
      have equal := meant.alone t' s' table' pair known (by rw [bare]; rfl) column among
        (by rwa [name_])
      subst equal
      have alike : Text.sameLetters c.name c'.name = true := by
        rw [called, Text.sameLetters_congr meant.same]
        exact Text.sameLetters_symm named
      rw [(tracing.located meant.pair meant.known).alike c here c' inside alike, plain]

/-- The one column that has the name is that of the table. -/
theorem found_filled {qualifier : List String}
    (meant : Meant db tables infos qualifier.head? name o t s table j)
    (tracing : Tracing db now tables infos) (guarded : Guarded db tables infos below)
    (inner : o.outer = false) (never : o.fact.isNotNull = true) {f : Scope.Found}
    (found : (Scope.sourcesNamed qualifier.reverse infos).flatMap
      (Scope.columnsNamed 0 name (!qualifier.isEmpty)) = [f]) :
    f.level = 0 ∧ Filled now tables infos f.index := by
  have some_ : Scope.sourcesNamed qualifier.reverse infos ≠ [] := by
    intro none
    rw [none] at found
    cases found
  obtain ⟨c, there, called⟩ := meant.column (tracing.located meant.pair meant.known)
  have plain : (!qualifier.isEmpty) = true ∨ c.shared = false := by
    by_cases bare : qualifier = []
    · right
      obtain ⟨s', among, hit⟩ := List.mem_flatMap.1 (found ▸ List.mem_singleton_self f)
      obtain ⟨i, c', at_, same, plain, _⟩ := Scope.mem_columnsNamed.1 hit
      refine meant.eq_of_column tracing guarded there called (by rw [bare]; rfl)
        (Scope.sourcesNamed_subset among) (List.mem_of_getElem? at_) same ?_
      simpa [bare] using plain
    · left
      simpa using bare
  have inside := Scope.mem_sourcesNamed some_ (List.of_mem_zip meant.pair).2 meant.named
  have hit : (⟨0, s.start + j, c⟩ : Scope.Found) ∈ [f] := by
    rw [← found]
    apply List.mem_flatMap.2
    refine ⟨s, inside, Scope.mem_columnsNamed.2 ?_⟩
    exact ⟨j, c, there, called ▸ meant.same, plain, rfl⟩
  obtain rfl := List.mem_singleton.1 hit
  exact ⟨rfl, meant.filled tracing inner never⟩

/-- A name that no column has is the row number of the only source. -/
theorem number_filled {qualifier : List String}
    (meant : Meant db tables infos qualifier.head? name o t s table j)
    (tracing : Tracing db now tables infos) (inner : o.outer = false) {s' : SourceInfo}
    (only : Scope.sourcesNamed qualifier.reverse infos = [s']) {place : Nat} {label : String}
    (number : s'.rowid = some (place, label)) : Filled now tables infos (s'.start + place) := by
  have inside := Scope.mem_sourcesNamed (by rw [only]; nofun) (List.of_mem_zip meant.pair).2
    meant.named
  rw [only] at inside
  obtain rfl := List.mem_singleton.1 inside
  obtain rfl := (tracing.located meant.pair meant.known).rowid place label number
  exact Filled.ofNumber tracing.same tracing.admitted meant.pair (meant.outer ▸ inner) meant.known

end Meant

/-- The one place of a name that is traced is filled, if its table says so. -/
theorem inLevel_filled (tracing : Tracing db now tables infos)
    (guarded : Guarded db tables infos below) {qualifier : List String} {name : String}
    {o : ColumnOrigin}
    (found : ColumnOrigin.resolve? (tables.map fun t => ⟨t, ColumnFact.ofName db t.name⟩)
      qualifier.head? name = some o)
    (inner : o.outer = false) (never : o.fact.isNotNull = true) {f : Scope.Found}
    (means : Scope.inLevel 0 ⟨infos, []⟩ qualifier.reverse name = [f]) :
    f.level = 0 ∧ Filled now tables infos f.index := by
  obtain ⟨t, s, table, j, meant⟩ := tracing.resolve?_meant found
  unfold Scope.inLevel at means
  dsimp only at means
  rw [List.isEmpty_reverse] at means
  split at means
  · exact meant.found_filled tracing guarded inner never means
  · split at means
    · split at means
      · rename_i only
        split at means
        · rename_i number
          cases means
          exact ⟨rfl, meant.number_filled tracing inner only number⟩
        · cases means
      · cases means
    · cases means

/-! Items of a list. -/

theorem column_holds (tracing : Tracing db now tables infos)
    (guarded : Guarded db tables infos below) {r : Resolver} {scope : Scope}
    (levels : scope.levels = [⟨infos, []⟩]) {parts : List String} {quoted : Bool} {offset : Nat}
    {before after : List AggregateCall} {term : Term}
    (found : Plans (Expression.column r scope parts quoted offset) before term after)
    {name : String} {qualifier : List String} (written : parts.reverse = name :: qualifier)
    {o : ColumnOrigin}
    (origin : ColumnOrigin.resolve? (tables.map fun t => ⟨t, ColumnFact.ofName db t.name⟩)
      qualifier.head? name = some o)
    (inner : o.outer = false) (never : o.fact.isNotNull = true)
    (declared : term.declType.isSome = true) :
    ∃ f : Scope.Found, term = f.term ∧ f.level = 0 ∧ Filled now tables infos f.index := by
  unfold Expression.column Scope.meaning at found
  rw [written, levels] at found
  dsimp only [Scope.meaningFrom] at found
  generalize means : Scope.inLevel 0 ⟨infos, []⟩ qualifier.reverse name = places at found
  match places with
  | [f] =>
      obtain ⟨rfl, _⟩ := plans_pure.1 found
      exact ⟨f, rfl, tracing.inLevel_filled guarded origin inner never means⟩
  | _ :: _ :: _ => exact (not_plans_refuse found).elim
  | [] =>
      -- The name of no column is a text or a truth value.
      have none : Scope.aliased? qualifier.reverse name ⟨infos, []⟩ = none := by
        simp [Scope.aliased?]
      rw [none] at found
      dsimp only at found
      repeat' split at found
      all_goals first
        | exact (not_plans_refuse found).elim
        | (obtain ⟨rfl, _⟩ := plans_pure.1 found
           cases declared)

theorem expand_lined (tracing : Tracing db now tables infos)
    (guarded : Guarded db tables infos below) {depth : Nat} {scope : Scope}
    (levels : scope.levels = [⟨infos, []⟩]) {column : Sql.ResultColumn}
    {before after : List AggregateCall} {results : List Query.Result}
    (found : Plans (Query.expand (Resolver.at_ depth) scope infos column) before results after) :
    Lined below (ColumnOrigin.Holds now tables infos)
      (ColumnOrigin.ofItem (tables.map fun t => ⟨t, ColumnFact.ofName db t.name⟩)
        (SelectSources.itemOf column)) results := by
  unfold Query.expand at found
  cases column with
  | expr e asName text =>
      obtain ⟨term, _, resolved, last⟩ := plans_bind.1 found
      obtain ⟨rfl, _⟩ := plans_pure.1 last
      obtain ⟨origin, single, written⟩ := ColumnOrigin.ofItem_expr
        (tables.map fun t => ⟨t, ColumnFact.ofName db t.name⟩) e asName text
      rw [single]
      apply Lined.single
      intro o same inner never declared
      obtain ⟨parts, quoted, offset, name, qualifier, rfl, reversed, here⟩ := written o same
      cases depth with
      | zero => exact (not_plans_refuse resolved).elim
      | succ depth =>
          exact tracing.column_holds guarded levels resolved reversed here inner never declared
  | all =>
      dsimp only at found
      split at found
      · exact (not_plans_refuse found).elim
      · split at found
        · exact (not_plans_refuse found).elim
        · obtain ⟨rfl, _⟩ := plans_pure.1 found
          have every : ColumnOrigin.answers none = fun _ => true := rfl
          rw [SelectSources.itemOf, ColumnOrigin.ofItem, every, List.filter_true, List.flatMap_map]
          exact tracing.all_lined guarded
  | allOf table =>
      dsimp only at found
      split at found
      · exact (not_plans_refuse found).elim
      · obtain ⟨rfl, _⟩ := plans_pure.1 found
        rw [SelectSources.itemOf, ColumnOrigin.ofItem, List.filter_map, List.flatMap_map]
        exact tracing.named_lined guarded table

/-- The results of a list, with the origins of its items. -/
theorem expandAll_lined (tracing : Tracing db now tables infos)
    (guarded : Guarded db tables infos below) {depth : Nat} {scope : Scope}
    (levels : scope.levels = [⟨infos, []⟩]) {columns : List Sql.ResultColumn}
    {before after : List AggregateCall} {results : List (List Query.Result)}
    (found : Plans (columns.mapM (Query.expand (Resolver.at_ depth) scope infos)) before results
      after) :
    Lined below (ColumnOrigin.Holds now tables infos)
      (ColumnOrigin.ofSources db ⟨tables, columns.map SelectSources.itemOf⟩) results.flatten := by
  unfold ColumnOrigin.ofSources
  dsimp only
  rw [List.flatMap_map, List.flatMap_def]
  apply Lined.flatten
  rw [List.forall₂_map_left_iff]
  apply (plans_mapM found).imp
  intro column results expanded
  obtain ⟨_, _, expanded⟩ := expanded
  exact tracing.expand_lined guarded levels expanded

end Tracing

end SqlUnits
