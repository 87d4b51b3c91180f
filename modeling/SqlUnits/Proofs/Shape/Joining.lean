import SqlUnits.Proofs.Shape.Covering
/-!
The shape that observations have in common. Merging takes the join of what was seen so far and
what is seen now, so neither the shape nor whether there is one depends on the order; only labels
and sites do.
-/

namespace SqlUnits

namespace ValueType

/-- Types of which one widens to the other. -/
def Comparable (t u : ValueType) : Prop :=
  t.widensTo u = true ∨ u.widensTo t = true

theorem comparable_iff {t u : ValueType} :
    t.Comparable u ↔ t = u ∨ t.isNumeric = true ∧ u.isNumeric = true := by
  unfold Comparable isNumeric
  rw [widensTo_iff, widensTo_iff]
  constructor
  · rintro ((rfl | ⟨a, b, low, high, _⟩) | (rfl | ⟨a, b, low, high, _⟩))
    · exact .inl rfl
    · exact .inr (by simp [low, high])
    · exact .inl rfl
    · exact .inr (by simp [low, high])
  · rintro (rfl | ⟨left, right⟩)
    · exact .inl (.inl rfl)
    · obtain ⟨a, low⟩ := Option.isSome_iff_exists.1 left
      obtain ⟨b, high⟩ := Option.isSome_iff_exists.1 right
      rcases Nat.le_total a b with le | le
      · exact .inl (.inr ⟨a, b, low, high, le⟩)
      · exact .inr (.inr ⟨b, a, high, low, le⟩)

theorem Comparable.symm {t u : ValueType} (comparable : t.Comparable u) : u.Comparable t :=
  Or.symm comparable

theorem Comparable.trans {t u w : ValueType} (first : t.Comparable u)
    (second : u.Comparable w) : t.Comparable w := by
  rw [comparable_iff] at first second ⊢
  rcases first with rfl | ⟨left, middle⟩
  · exact second
  · rcases second with rfl | ⟨_, right⟩
    · exact .inr ⟨left, middle⟩
    · exact .inr ⟨left, right⟩

theorem wider?_isSome {t u : ValueType} : (wider? t u).isSome = true ↔ t.Comparable u := by
  unfold wider? Comparable
  split
  · simp [*]
  · split <;> simp [*]

theorem widensTo_antisymm {t u : ValueType} (first : t.widensTo u = true)
    (second : u.widensTo t = true) : t = u := by
  rw [widensTo_iff] at first second
  rcases first with same | ⟨a, b, low, high, le⟩
  · exact same
  · rcases second with same | ⟨b', a', high', low', le'⟩
    · exact same.symm
    · have rank : t.rank? = u.rank? := by
        rw [low] at low'
        rw [high] at high'
        obtain rfl := Option.some.inj low'
        obtain rfl := Option.some.inj high'
        rw [low, high, Nat.le_antisymm le le']
      -- No two types share a rank.
      cases t <;> cases u <;> simp [rank?] at rank low <;> rfl

/-- The least type that all of some types widen to. -/
structure IsJoin (types : List ValueType) (t : ValueType) : Prop where
  above : ∀ u ∈ types, u.widensTo t = true
  least : ∀ w, (∀ u ∈ types, u.widensTo w = true) → t.widensTo w = true

theorem IsJoin.unique {types others : List ValueType} {t u : ValueType} (join : IsJoin types t)
    (other : IsJoin others u) (same : ∀ w, w ∈ types ↔ w ∈ others) : t = u := by
  apply widensTo_antisymm
  · exact join.least u fun w member => other.above w ((same w).1 member)
  · exact other.least t fun w member => join.above w ((same w).2 member)

/-- The type that some types have in common; without any there is none. -/
def IsCommon (types : List ValueType) : Option ValueType → Prop
  | none => types = []
  | some t => types ≠ [] ∧ IsJoin types t

theorem IsCommon.unique {types others : List ValueType} {a b : Option ValueType}
    (common : IsCommon types a) (other : IsCommon others b) (perm : types.Perm others) :
    a = b := by
  cases a with
  | none =>
      obtain rfl : types = [] := common
      cases b with
      | none => rfl
      | some u => exact absurd perm.nil_eq.symm other.1
  | some t =>
      cases b with
      | none =>
          obtain rfl : others = [] := other
          exact absurd perm.eq_nil common.1
      | some u => rw [common.2.unique other.2 fun _ => perm.mem_iff]

theorem IsCommon.comparable_iff {types : List ValueType} {a : Option ValueType}
    (common : IsCommon types a) (u : ValueType) :
    (∀ t, a = some t → t.Comparable u) ↔ ∀ t ∈ types, t.Comparable u := by
  cases a with
  | none =>
      obtain rfl : types = [] := common
      simp
  | some w =>
      obtain ⟨some_, join⟩ := common
      constructor
      · intro comparable t member
        exact .trans (.inl (join.above t member)) (comparable w rfl)
      · rintro comparable _ ⟨⟩
        -- Being comparable is transitive, so any one of the types will do.
        obtain ⟨t, member⟩ := List.exists_mem_of_ne_nil types some_
        exact .trans (.inr (join.above t member)) (comparable t member)

end ValueType

namespace Nullability

theorem merge_eq_yes {a b : Nullability} : a.merge b = yes ↔ a = yes ∨ b = yes := by
  cases a <;> cases b <;> decide

theorem merge_eq_no {a b : Nullability} : a.merge b = no ↔ a = no ∧ b = no := by
  cases a <;> cases b <;> decide

theorem eq_of_iff {a b : Nullability} (isYes : a = yes ↔ b = yes) (isNo : a = no ↔ b = no) :
    a = b := by
  cases a <;> cases b <;> simp at isYes isNo ⊢

end Nullability

namespace ColumnInfo

/-- What a column says of its values, whatever it is called. -/
def content (c : ColumnInfo) : Option ValueType × Nullability × Nat × Nat × Nat :=
  (c.valueType, c.nullable, c.displaySize, c.precision, c.scale)

/-- What a column is called, and what its table says of it. -/
def label (c : ColumnInfo) : String × Option String :=
  (c.name, c.sqlType)

/-- A column that says what some columns say together. -/
structure Joins (column : ColumnInfo) (seen : List ColumnInfo) : Prop where
  type : ValueType.IsCommon (seen.filterMap (·.valueType)) column.valueType
  nullable : column.nullable = .yes ↔ ∃ c ∈ seen, c.nullable = .yes
  notNull : column.nullable = .no ↔ ∀ c ∈ seen, c.nullable = .no
  displaySize : (seen.map (·.displaySize)).max? = some column.displaySize
  precision : (seen.map (·.precision)).max? = some column.precision
  scale : (seen.map (·.scale)).max? = some column.scale

theorem Joins.single (c : ColumnInfo) : c.Joins [c] where
  type := by
    cases known : c.valueType with
    | none => simp [ValueType.IsCommon, known]
    | some t =>
        rw [List.filterMap_cons_some known]
        refine ⟨List.cons_ne_nil _ _, by simp [ValueType.widensTo_refl], ?_⟩
        intro w above
        exact above t (.head _)
  nullable := by simp
  notNull := by simp
  displaySize := rfl
  precision := rfl
  scale := rfl

theorem max?_snoc {sizes : List Nat} {m : Nat} (largest : sizes.max? = some m) (n : Nat) :
    (sizes ++ [n]).max? = some (max m n) := by
  obtain ⟨member, above⟩ := List.max?_eq_some_iff.1 largest
  rw [List.max?_eq_some_iff]
  constructor
  · rcases Nat.le_total m n with le | le
    · simp [Nat.max_eq_right le]
    · simp [Nat.max_eq_left le, member]
  · intro b inside
    rcases List.mem_append.1 inside with before | last
    · exact Nat.le_trans (above b before) (Nat.le_max_left m n)
    · rw [List.mem_singleton.1 last]
      exact Nat.le_max_right m n

theorem max?_perm {sizes others : List Nat} (perm : sizes.Perm others) :
    sizes.max? = others.max? := by
  apply Option.ext
  intro m
  simp only [List.max?_eq_some_iff, perm.mem_iff]

/-- Columns whose types, where both are known, have a common one. -/
def Agrees (c d : ColumnInfo) : Prop :=
  ∀ u, d.valueType = some u → ∀ t, c.valueType = some t → t.Comparable u

theorem Agrees.symm {c d : ColumnInfo} (agrees : c.Agrees d) : d.Agrees c :=
  fun t known u other => (agrees u other t known).symm

theorem Joins.agrees_iff {c d : ColumnInfo} {seen : List ColumnInfo} (joins : c.Joins seen) :
    c.Agrees d ↔ ∀ b ∈ seen, b.Agrees d := by
  constructor
  · intro agrees b member u other t known
    have comparable := (joins.type.comparable_iff u).1 (agrees u other)
    exact comparable t (List.mem_filterMap.2 ⟨b, member, known⟩)
  · intro agrees u other
    rw [joins.type.comparable_iff]
    intro t member
    obtain ⟨b, inside, known⟩ := List.mem_filterMap.1 member
    exact agrees b inside u other t known

theorem Joins.content_eq {c d : ColumnInfo} {seen others : List ColumnInfo} (joins : c.Joins seen)
    (joins' : d.Joins others) (perm : seen.Perm others) : c.content = d.content := by
  have type : c.valueType = d.valueType := joins.type.unique joins'.type (perm.filterMap _)
  have nullable : c.nullable = d.nullable := by
    apply Nullability.eq_of_iff
    · rw [joins.nullable, joins'.nullable]
      simp only [perm.mem_iff]
    · rw [joins.notNull, joins'.notNull]
      simp only [perm.mem_iff]
  have size (f : ColumnInfo → Nat) {m n : Nat} (left : (seen.map f).max? = some m)
      (right : (others.map f).max? = some n) : m = n := by
    rw [max?_perm (perm.map f), right] at left
    exact (Option.some.inj left).symm
  unfold content
  rw [type, nullable, size _ joins.displaySize joins'.displaySize,
    size _ joins.precision joins'.precision, size _ joins.scale joins'.scale]

end ColumnInfo

namespace RowShape

theorem mergeType_isOk {a b : Option ValueType} :
    (∃ c, mergeType a b = .ok c) ↔ ∀ u, b = some u → ∀ t, a = some t → t.Comparable u := by
  cases a with
  | none => simp [mergeType]
  | some t =>
      cases b with
      | none => simp [mergeType]
      | some u =>
          have wider := ValueType.wider?_isSome (t := t) (u := u)
          unfold mergeType
          cases found : ValueType.wider? t u with
          | none => simpa [found] using wider
          | some w => simpa [found] using wider

theorem mergeType_common {types : List ValueType} {a b c : Option ValueType}
    (common : ValueType.IsCommon types a) (merged : mergeType a b = .ok c) :
    ValueType.IsCommon (types ++ b.toList) c := by
  cases b with
  | none =>
      rw [Option.toList_none, List.append_nil]
      cases a <;> cases merged <;> exact common
  | some u =>
      cases a with
      | none =>
          cases merged
          obtain rfl : types = [] := common
          refine ⟨List.cons_ne_nil _ _, by simp [ValueType.widensTo_refl], ?_⟩
          intro w above
          exact above u (.head _)
      | some t =>
          obtain ⟨_, join⟩ := common
          obtain ⟨left, right, either⟩ := mergeType_covers merged
          obtain ⟨w, rfl, le⟩ := left t rfl
          obtain ⟨_, ⟨⟩, le'⟩ := right u rfl
          refine ⟨by simp, ?_, ?_⟩
          · intro v member
            rcases List.mem_append.1 member with before | last
            · exact ValueType.widensTo_trans (join.above v before) le
            · rw [List.mem_singleton.1 last]
              exact le'
          -- What is joined is one of the two, and both are below anything above them all.
          · intro v above
            rcases either with same | same
            · rw [Option.some.inj same]
              exact join.least v fun x member => above x (List.mem_append_left _ member)
            · rw [Option.some.inj same]
              exact above u (by simp)

theorem mergeColumn_isOk {a b : ColumnInfo} : (∃ c, mergeColumn a b = .ok c) ↔ a.Agrees b := by
  rw [ColumnInfo.Agrees, ← mergeType_isOk]
  unfold mergeColumn
  cases mergeType a.valueType b.valueType with
  | error e => simp [bind, Except.bind]
  | ok t => simp [bind, Except.bind, pure, Except.pure]

theorem mergeColumn_joins {c d e : ColumnInfo} {seen : List ColumnInfo} (joins : c.Joins seen)
    (merged : mergeColumn c d = .ok e) : e.Joins (seen ++ [d]) ∧ e.label = c.label := by
  unfold mergeColumn at merged
  cases type : mergeType c.valueType d.valueType with
  | error pair => simp [type, bind, Except.bind] at merged
  | ok joined =>
      simp only [type, bind, Except.bind, pure, Except.pure, Except.ok.injEq] at merged
      subst merged
      have types : (seen ++ [d]).filterMap (·.valueType) =
          seen.filterMap (·.valueType) ++ d.valueType.toList := by
        rw [List.filterMap_append]
        cases known : d.valueType <;> simp [known]
      have size (f : ColumnInfo → Nat) (largest : (seen.map f).max? = some (f c)) :
          ((seen ++ [d]).map f).max? = some (max (f c) (f d)) := by
        rw [List.map_append]
        exact ColumnInfo.max?_snoc largest (f d)
      constructor
      · constructor
        case type =>
          rw [types]
          exact mergeType_common joins.type type
        case nullable =>
          rw [Nullability.merge_eq_yes, joins.nullable]
          simp [or_and_right, exists_or]
        case notNull =>
          rw [Nullability.merge_eq_no, joins.notNull]
          simp [or_imp, forall_and]
        case displaySize => exact size _ joins.displaySize
        case precision => exact size _ joins.precision
        case scale => exact size _ joins.scale
      · rfl

theorem mergeColumns_eq_ok {as bs cs : List ColumnInfo} :
    mergeColumns as bs = .ok cs ↔
      List.Forall₂ (fun pair c => mergeColumn pair.1 pair.2 = .ok c) (as.zip bs) cs := by
  induction as generalizing bs cs with
  | nil => cases cs <;> simp [mergeColumns]
  | cons a as ih =>
      cases bs with
      | nil => cases cs <;> simp [mergeColumns]
      | cons b bs =>
          unfold mergeColumns
          cases one : mergeColumn a b with
          | error e => cases cs <;> simp [one]
          | ok c =>
              cases rest : mergeColumns as bs with
              | error e => cases cs <;> simp [one, ← ih, rest]
              | ok tail => cases cs <;> simp [one, ← ih, rest]

theorem mergeColumns_isOk {as bs : List ColumnInfo} :
    (∃ cs, mergeColumns as bs = .ok cs) ↔ ∀ pair ∈ as.zip bs, pair.1.Agrees pair.2 := by
  induction as generalizing bs with
  | nil => simp [mergeColumns]
  | cons a as ih =>
      cases bs with
      | nil => simp [mergeColumns]
      | cons b bs =>
          rw [List.zip_cons_cons, List.forall_mem_cons, ← ih, ← mergeColumn_isOk]
          rw [mergeColumns]
          cases mergeColumn a b with
          | error e => simp
          | ok c => cases mergeColumns as bs <;> simp

/-- What a shape says of its rows, whatever their columns are called and wherever it was seen. -/
def content (shape : RowShape) :
    Bool × List (Option ValueType × Nullability × Nat × Nat × Nat) :=
  (shape.isMeta, shape.columns.map ColumnInfo.content)

/-- Shapes that rows of one type can have at two places. -/
structure Agrees (s t : RowShape) : Prop where
  mode : s.isMeta = t.isMeta
  count : s.columns.length = t.columns.length
  columns : ∀ (i : Nat) c d, s.columns[i]? = some c → t.columns[i]? = some d → c.Agrees d

theorem Agrees.symm {s t : RowShape} (agrees : s.Agrees t) : t.Agrees s :=
  ⟨agrees.mode.symm, agrees.count.symm,
    fun i c d left right => (agrees.columns i d c right left).symm⟩

/-- A shape that says what some shapes say together, in the order in which they were seen. -/
structure Joins (shape : RowShape) (seen : List RowShape) : Prop where
  mode : ∀ s ∈ seen, s.isMeta = shape.isMeta
  count : ∀ s ∈ seen, s.columns.length = shape.columns.length
  columns : ∀ (i : Nat) c, shape.columns[i]? = some c → c.Joins (seen.filterMap (·.columns[i]?))
  labels : ∃ first rest, seen = first :: rest ∧
    shape.columns.map ColumnInfo.label = first.columns.map ColumnInfo.label
  sites : shape.sites = seen.flatMap (·.sites)

theorem Joins.single (shape : RowShape) : shape.Joins [shape] where
  mode := by simp
  count := by simp
  columns i c here := by
    have seen : [shape].filterMap (·.columns[i]?) = [c] := by simp [here]
    rw [seen]
    exact .single c
  labels := ⟨shape, [], rfl, rfl⟩
  sites := by simp

theorem Joins.getElem? {shape s : RowShape} {seen : List RowShape} (joins : shape.Joins seen)
    (member : s ∈ seen) {i : Nat} {c : ColumnInfo} (here : s.columns[i]? = some c) :
    ∃ d, shape.columns[i]? = some d := by
  obtain ⟨inside, _⟩ := List.getElem?_eq_some_iff.1 here
  rw [joins.count s member] at inside
  exact ⟨_, List.getElem?_eq_getElem inside⟩

theorem Joins.agrees_iff {shape t : RowShape} {seen : List RowShape} (joins : shape.Joins seen) :
    shape.Agrees t ↔ ∀ s ∈ seen, s.Agrees t := by
  constructor
  · intro agrees s member
    refine ⟨(joins.mode s member).trans agrees.mode, (joins.count s member).trans agrees.count, ?_⟩
    intro i c d here there
    obtain ⟨e, joined⟩ := joins.getElem? member here
    have each := (joins.columns i e joined).agrees_iff.1 (agrees.columns i e d joined there)
    exact each c (List.mem_filterMap.2 ⟨s, member, here⟩)
  · intro each
    obtain ⟨first, rest, rfl, _⟩ := joins.labels
    have agrees := each first (.head rest)
    refine ⟨?_, ?_, ?_⟩
    · rw [← joins.mode first (.head rest), agrees.mode]
    · rw [← joins.count first (.head rest), agrees.count]
    · intro i e d joined there
      rw [(joins.columns i e joined).agrees_iff]
      intro c member
      obtain ⟨s, inside, here⟩ := List.mem_filterMap.1 member
      exact (each s inside).columns i c d here there

theorem merge_eq_ok {shape merged : RowShape} {isMeta : Bool} {columns : List ColumnInfo}
    {site : Location} :
    shape.merge isMeta columns site = .ok merged ↔
      shape.isMeta = isMeta ∧ shape.columns.length = columns.length ∧
        ∃ cs, mergeColumns shape.columns columns = .ok cs ∧
          merged = { shape with columns := cs, sites := shape.sites ++ [site] } := by
  unfold merge
  by_cases mode : shape.isMeta = isMeta
  · by_cases count : shape.columns.length = columns.length
    · cases mergeColumns shape.columns columns <;> simp [mode, count, eq_comm]
    · simp [mode, count]
  · simp [mode]

theorem merge_isOk {s t : RowShape} {site : Location} :
    (∃ merged, s.merge t.isMeta t.columns site = .ok merged) ↔ s.Agrees t := by
  simp only [merge_eq_ok]
  constructor
  · rintro ⟨_, mode, count, cs, columns, _⟩
    refine ⟨mode, count, ?_⟩
    intro i c d here there
    have agrees := mergeColumns_isOk.1 ⟨cs, columns⟩ (c, d)
    exact agrees (List.mem_of_getElem? (List.getElem?_zip_eq_some.2 ⟨here, there⟩))
  · intro agrees
    have each : ∀ pair ∈ s.columns.zip t.columns, pair.1.Agrees pair.2 := by
      intro pair member
      obtain ⟨i, both⟩ := List.mem_iff_getElem?.1 member
      obtain ⟨here, there⟩ := List.getElem?_zip_eq_some.1 both
      exact agrees.columns i _ _ here there
    obtain ⟨cs, columns⟩ := mergeColumns_isOk.2 each
    exact ⟨_, agrees.mode, agrees.count, cs, columns, rfl⟩

theorem mergeColumns_getElem? {as bs cs : List ColumnInfo} (length : as.length = bs.length)
    (merged : mergeColumns as bs = .ok cs) :
    cs.length = as.length ∧ ∀ (i : Nat) c, cs[i]? = some c → ∃ a b, as[i]? = some a ∧
      bs[i]? = some b ∧ mergeColumn a b = .ok c := by
  have pairs := mergeColumns_eq_ok.1 merged
  constructor
  · rw [← pairs.length_eq, List.length_zip, length, Nat.min_self]
  · intro i c here
    obtain ⟨inside, rfl⟩ := List.getElem?_eq_some_iff.1 here
    have within : i < (as.zip bs).length := pairs.length_eq ▸ inside
    have both := List.getElem?_zip_eq_some.1 (List.getElem?_eq_getElem within)
    exact ⟨_, _, both.1, both.2, pairs.get within inside⟩

theorem merge_joins {shape t merged : RowShape} {seen : List RowShape} {site : Location}
    (joins : shape.Joins seen) (here : t.sites = [site])
    (merges : shape.merge t.isMeta t.columns site = .ok merged) :
    merged.Joins (seen ++ [t]) := by
  obtain ⟨mode, count, cs, columns, rfl⟩ := merge_eq_ok.1 merges
  obtain ⟨length, each⟩ := mergeColumns_getElem? count columns
  constructor
  case mode =>
    intro s member
    rcases List.mem_append.1 member with before | last
    · exact joins.mode s before
    · rw [List.mem_singleton.1 last]
      exact mode.symm
  case count =>
    intro s member
    rcases List.mem_append.1 member with before | last
    · exact (joins.count s before).trans length.symm
    · rw [List.mem_singleton.1 last, ← count]
      exact length.symm
  case columns =>
    intro i c joined
    obtain ⟨a, b, first, second, one⟩ := each i c joined
    have last : [t].filterMap (·.columns[i]?) = [b] := by simp [second]
    rw [List.filterMap_append, last]
    exact (mergeColumn_joins (joins.columns i a first) one).1
  case labels =>
    obtain ⟨first, rest, rfl, labels⟩ := joins.labels
    refine ⟨first, rest ++ [t], rfl, ?_⟩
    rw [← labels]
    apply List.ext_getElem (by simpa using length)
    intro i inside _
    rw [List.length_map] at inside
    obtain ⟨a, b, there, second, one⟩ := each i cs[i] (List.getElem?_eq_getElem inside)
    obtain ⟨_, rfl⟩ := List.getElem?_eq_some_iff.1 there
    rw [List.getElem_map, List.getElem_map]
    exact (mergeColumn_joins (joins.columns i _ there) one).2
  case sites => simp [joins.sites, here]

theorem Joins.content_eq {s t : RowShape} {seen others : List RowShape} (joins : s.Joins seen)
    (joins' : t.Joins others) (perm : seen.Perm others) : s.content = t.content := by
  obtain ⟨first, rest, some_, _⟩ := joins.labels
  have member : first ∈ seen := by rw [some_]; exact .head rest
  have member' : first ∈ others := perm.mem_iff.1 member
  have mode : s.isMeta = t.isMeta :=
    (joins.mode first member).symm.trans (joins'.mode first member')
  have count : s.columns.length = t.columns.length :=
    (joins.count first member).symm.trans (joins'.count first member')
  have columns : s.columns.map ColumnInfo.content = t.columns.map ColumnInfo.content := by
    apply List.ext_getElem (by simpa using count)
    intro i left right
    rw [List.length_map] at left right
    rw [List.getElem_map, List.getElem_map]
    have here := joins.columns i _ (List.getElem?_eq_getElem left)
    have there := joins'.columns i _ (List.getElem?_eq_getElem right)
    exact here.content_eq there (perm.filterMap _)
  unfold content
  rw [mode, columns]

end RowShape

/-- What one statement shows of the rows of a row type. -/
structure Observation where
  isMeta : Bool
  columns : List ColumnInfo
  site : Location
deriving DecidableEq

/-- The shape that a row type has where it is observed. -/
def Observation.shape (row : String) (o : Observation) : RowShape :=
  ⟨row, o.isMeta, o.columns, [o.site]⟩

namespace ShapeRegistry

/-- Records observations of one row type in order, as far as they succeed. -/
def recordAll (registry : ShapeRegistry) (row : String) (os : List Observation) :
    Except ShapeMergeError ShapeRegistry :=
  os.foldlM (fun registry o => (·.2) <$> registry.record row o.isMeta o.columns o.site) registry

/-- A registry knows of a row type what some shapes say together. -/
def Shows (registry : ShapeRegistry) (row : String) (seen : List RowShape) : Prop :=
  match registry.get? row with
  | none => seen = []
  | some shape => shape.Joins seen

variable {registry next last : ShapeRegistry} {row : String} {seen : List RowShape}

theorem shows_toList (registry : ShapeRegistry) (row : String) :
    registry.Shows row (registry.get? row).toList := by
  unfold Shows
  cases registry.get? row with
  | none => rfl
  | some shape => exact .single shape

theorem Shows.eq_none_iff (shows : registry.Shows row seen) :
    registry.get? row = none ↔ seen = [] := by
  unfold Shows at shows
  cases known : registry.get? row with
  | none =>
      simp only [known] at shows
      simp [shows]
  | some shape =>
      simp only [known] at shows
      obtain ⟨first, rest, rfl, _⟩ := shows.labels
      simp

theorem Shows.content_eq {others : List RowShape} (shows : registry.Shows row seen)
    (shows' : next.Shows row others) (perm : seen.Perm others) :
    (registry.get? row).map RowShape.content = (next.get? row).map RowShape.content := by
  have none_iff : registry.get? row = none ↔ next.get? row = none := by
    rw [shows.eq_none_iff, shows'.eq_none_iff, List.eq_nil_iff_forall_not_mem,
      List.eq_nil_iff_forall_not_mem]
    simp only [perm.mem_iff]
  cases known : registry.get? row with
  | none => rw [none_iff.1 known]
  | some shape =>
      obtain ⟨shape', known'⟩ := Option.ne_none_iff_exists'.1 fun none => by
        rw [none_iff.2 none] at known
        cases known
      simp only [Shows, known] at shows
      simp only [Shows, known'] at shows'
      rw [known', Option.map_some, Option.map_some, shows.content_eq shows' perm]

theorem record_isOk (shows : registry.Shows row seen) {o : Observation} :
    (∃ pair, registry.record row o.isMeta o.columns o.site = .ok pair) ↔
      ∀ s ∈ seen, s.Agrees (o.shape row) := by
  unfold Shows at shows
  unfold record
  cases known : registry.get? row with
  | none =>
      simp only [known] at shows
      simp [shows, bind, Except.bind, pure, Except.pure]
  | some shape =>
      simp only [known] at shows
      have merges : (∃ merged, shape.merge o.isMeta o.columns o.site = .ok merged) ↔
          shape.Agrees (o.shape row) := @RowShape.merge_isOk shape (o.shape row) o.site
      rw [← shows.agrees_iff, ← merges]
      simp only [bind, Except.bind, pure, Except.pure]
      cases shape.merge o.isMeta o.columns o.site <;> simp

theorem record_shows (shows : registry.Shows row seen) {o : Observation} {shape : RowShape}
    (recorded : registry.record row o.isMeta o.columns o.site = .ok (shape, next)) :
    next.Shows row (seen ++ [o.shape row]) ∧
      ∀ other, other ≠ row → next.get? other = registry.get? other := by
  obtain ⟨get, _⟩ := record_eq_ok recorded
  refine ⟨?_, fun other apart => by rw [get, if_neg apart]⟩
  unfold Shows at shows ⊢
  rw [get, if_pos rfl]
  unfold record at recorded
  cases known : registry.get? row with
  | none =>
      simp only [known, bind, Except.bind, pure, Except.pure, Except.ok.injEq,
        Prod.mk.injEq] at shows recorded
      rw [shows, ← recorded.1]
      exact .single _
  | some before =>
      simp only [known, bind, Except.bind] at shows recorded
      cases merges : before.merge o.isMeta o.columns o.site with
      | error e => simp [merges] at recorded
      | ok merged =>
          simp only [merges, pure, Except.pure, Except.ok.injEq, Prod.mk.injEq] at recorded
          rw [← recorded.1]
          exact RowShape.merge_joins shows (t := o.shape row) rfl merges

theorem recordAll_cons {o : Observation} {os : List Observation} :
    registry.recordAll row (o :: os) = .ok last ↔
      ∃ shape next, registry.record row o.isMeta o.columns o.site = .ok (shape, next) ∧
        next.recordAll row os = .ok last := by
  unfold recordAll
  rw [List.foldlM_cons]
  cases registry.record row o.isMeta o.columns o.site with
  | error e => simp [bind, Except.bind]
  | ok pair =>
      obtain ⟨shape, next⟩ := pair
      simp [bind, Except.bind]

theorem recordAll_shows {os : List Observation} (shows : registry.Shows row seen)
    (recorded : registry.recordAll row os = .ok last) :
    last.Shows row (seen ++ os.map (·.shape row)) ∧
      ∀ other, other ≠ row → last.get? other = registry.get? other := by
  induction os generalizing registry seen with
  | nil =>
      cases recorded
      rw [List.map_nil, List.append_nil]
      exact ⟨shows, fun _ _ => rfl⟩
  | cons o os ih =>
      obtain ⟨shape, next, one, rest⟩ := recordAll_cons.1 recorded
      obtain ⟨shows', kept⟩ := record_shows shows one
      obtain ⟨whole, kept'⟩ := ih shows' rest
      rw [List.append_assoc] at whole
      exact ⟨whole, fun other apart => (kept' other apart).trans (kept other apart)⟩

/-- All observations are recorded exactly if any two of them agree. -/
theorem recordAll_isOk {os : List Observation} (shows : registry.Shows row seen)
    (agreed : seen.Pairwise RowShape.Agrees) :
    (∃ last, registry.recordAll row os = .ok last) ↔
      (seen ++ os.map (·.shape row)).Pairwise RowShape.Agrees := by
  induction os generalizing registry seen with
  | nil => simpa [recordAll, pure, Except.pure] using agreed
  | cons o os ih =>
      have whole : seen ++ (o :: os).map (·.shape row) =
          (seen ++ [o.shape row]) ++ os.map (·.shape row) := by simp
      rw [whole]
      -- What was seen grows by one that fits; one that does not breaks the pairs as well.
      by_cases fits : ∀ s ∈ seen, s.Agrees (o.shape row)
      · obtain ⟨⟨shape, next⟩, one⟩ := (record_isOk shows).2 fits
        have agreed' : (seen ++ [o.shape row]).Pairwise RowShape.Agrees := by
          simpa [List.pairwise_append, agreed] using fits
        rw [← ih (record_shows shows one).1 agreed']
        simp [recordAll_cons, one]
      · constructor
        · rintro ⟨last, recorded⟩
          obtain ⟨shape, next, one, _⟩ := recordAll_cons.1 recorded
          exact absurd ((record_isOk shows).1 ⟨_, one⟩) fits
        · intro pairs
          have first := (List.pairwise_append.1 (List.pairwise_append.1 pairs).1).2.2
          exact absurd (fun s member => first s member _ (.head [])) fits

end ShapeRegistry

end SqlUnits
