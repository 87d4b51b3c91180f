import Mathlib.Data.List.Forall2
import SqlUnits.Shape.RowShape
/-!
Shapes only grow. What is recorded of a row type covers every observation of it, and goes on to
cover it whatever is recorded later.
-/

namespace SqlUnits

namespace ValueType

theorem widensTo_refl (t : ValueType) : t.widensTo t = true := by
  simp [widensTo]

theorem widensTo_iff {t u : ValueType} :
    t.widensTo u = true ↔ t = u ∨ ∃ a b, t.rank? = some a ∧ u.rank? = some b ∧ a ≤ b := by
  unfold widensTo
  cases t.rank? <;> cases u.rank? <;> simp

theorem widensTo_trans {t u w : ValueType} (first : t.widensTo u = true)
    (second : u.widensTo w = true) : t.widensTo w = true := by
  rw [widensTo_iff] at first second ⊢
  rcases first with rfl | ⟨a, b, low, high, le⟩
  · exact second
  · rcases second with rfl | ⟨b', e, low', high', le'⟩
    · exact .inr ⟨a, b, low, high, le⟩
    · obtain rfl := Option.some.inj (high.symm.trans low')
      exact .inr ⟨a, e, low, high', Nat.le_trans le le'⟩

theorem wider?_covers {a b t : ValueType} (wider : wider? a b = some t) :
    a.widensTo t = true ∧ b.widensTo t = true ∧ (t = a ∨ t = b) := by
  unfold wider? at wider
  split at wider
  · rename_i widens
    cases wider
    exact ⟨widens, widensTo_refl _, .inr rfl⟩
  · split at wider
    · rename_i widens
      cases wider
      exact ⟨widensTo_refl _, widens, .inl rfl⟩
    · cases wider

end ValueType

/-- A type that is known is known to the other column, and widens to what it is there. -/
def ColumnInfo.Below (c d : ColumnInfo) : Prop :=
  ∀ t, c.valueType = some t → ∃ u, d.valueType = some u ∧ t.widensTo u = true

namespace ColumnInfo.Below

theorem refl (c : ColumnInfo) : c.Below c :=
  fun t known => ⟨t, known, t.widensTo_refl⟩

theorem trans {c d e : ColumnInfo} (first : c.Below d) (second : d.Below e) : c.Below e := by
  intro t known
  obtain ⟨u, known, le⟩ := first t known
  obtain ⟨w, known, le'⟩ := second u known
  exact ⟨w, known, ValueType.widensTo_trans le le'⟩

end ColumnInfo.Below

namespace RowShape

/-- What a shape says of one observation of its rows. -/
structure Covers (shape : RowShape) (isMeta : Bool) (columns : List ColumnInfo) : Prop where
  mode : shape.isMeta = isMeta
  below : List.Forall₂ ColumnInfo.Below columns shape.columns

theorem mergeType_covers {a b c : Option ValueType} (merged : mergeType a b = .ok c) :
    (∀ t, a = some t → ∃ u, c = some u ∧ t.widensTo u = true) ∧
      (∀ t, b = some t → ∃ u, c = some u ∧ t.widensTo u = true) ∧ (c = a ∨ c = b) := by
  cases a with
  | none =>
      cases b <;> cases merged
      · exact ⟨nofun, nofun, .inl rfl⟩
      · refine ⟨nofun, ?_, .inr rfl⟩
        rintro _ ⟨⟩
        exact ⟨_, rfl, ValueType.widensTo_refl _⟩
  | some x =>
      cases b with
      | none =>
          cases merged
          refine ⟨?_, nofun, .inl rfl⟩
          rintro _ ⟨⟩
          exact ⟨_, rfl, ValueType.widensTo_refl _⟩
      | some y =>
          unfold mergeType at merged
          dsimp only at merged
          split at merged
          · rename_i t wider
            cases merged
            obtain ⟨left, right, either⟩ := ValueType.wider?_covers wider
            refine ⟨?_, ?_, by simpa using either⟩
            · rintro _ ⟨⟩
              exact ⟨t, rfl, left⟩
            · rintro _ ⟨⟩
              exact ⟨t, rfl, right⟩
          · cases merged

theorem mergeColumn_covers {a b c : ColumnInfo} (merged : mergeColumn a b = .ok c) :
    a.Below c ∧ b.Below c ∧ (c.valueType = a.valueType ∨ c.valueType = b.valueType) := by
  unfold mergeColumn at merged
  cases type : mergeType a.valueType b.valueType with
  | error pair => simp [type, bind, Except.bind] at merged
  | ok t =>
      simp only [type, bind, Except.bind, pure, Except.pure, Except.ok.injEq] at merged
      subst merged
      exact mergeType_covers type

theorem mergeColumns_covers : ∀ {as bs cs : List ColumnInfo}, as.length = bs.length →
    mergeColumns as bs = .ok cs →
    List.Forall₂ ColumnInfo.Below as cs ∧ List.Forall₂ ColumnInfo.Below bs cs ∧
      ∀ c ∈ cs, ∃ d, (d ∈ as ∨ d ∈ bs) ∧ c.valueType = d.valueType
  | [], [], _, _, merged => by
      cases merged
      exact ⟨.nil, .nil, nofun⟩
  | a :: as, b :: bs, cs, length, merged => by
      unfold mergeColumns at merged
      split at merged
      · cases merged
      · rename_i c one
        cases rest : mergeColumns as bs with
        | error e => simp [rest] at merged
        | ok cs' =>
            simp only [rest, Except.map_ok, Except.ok.injEq] at merged
            subst merged
            obtain ⟨left, right, either⟩ := mergeColumn_covers one
            obtain ⟨lefts, rights, all⟩ := mergeColumns_covers (Nat.succ.inj length) rest
            refine ⟨.cons left lefts, .cons right rights, ?_⟩
            intro x member
            rcases List.mem_cons.1 member with rfl | member
            · rcases either with same | same
              · exact ⟨a, .inl (.head as), same⟩
              · exact ⟨b, .inr (.head bs), same⟩
            · obtain ⟨d, from_, same⟩ := all x member
              exact ⟨d, from_.imp (.tail a) (.tail b), same⟩

theorem merge_covers {shape merged : RowShape} {isMeta : Bool} {columns : List ColumnInfo}
    {site : Location} (merges : shape.merge isMeta columns site = .ok merged) :
    merged.rowType = shape.rowType ∧ merged.Covers shape.isMeta shape.columns ∧
      merged.Covers isMeta columns ∧
        ∀ c ∈ merged.columns, ∃ d, (d ∈ shape.columns ∨ d ∈ columns) ∧
          c.valueType = d.valueType := by
  unfold merge at merges
  split at merges
  · cases merges
  · rename_i mode
    split at merges
    · cases merges
    · rename_i length
      split at merges
      · cases merges
      · rename_i cs columns'
        cases merges
        obtain ⟨left, right, all⟩ := mergeColumns_covers (not_not.1 length) columns'
        have same : shape.isMeta = isMeta := by simpa using mode
        exact ⟨rfl, ⟨rfl, left⟩, ⟨same, right⟩, all⟩

theorem below_trans : ∀ {as bs cs : List ColumnInfo},
    List.Forall₂ ColumnInfo.Below as bs → List.Forall₂ ColumnInfo.Below bs cs →
      List.Forall₂ ColumnInfo.Below as cs
  | [], [], [], .nil, .nil => .nil
  | _ :: _, _ :: _, _ :: _, .cons first rest, .cons first' rest' =>
      .cons (first.trans first') (below_trans rest rest')

theorem below_refl : ∀ columns : List ColumnInfo, List.Forall₂ ColumnInfo.Below columns columns
  | [] => .nil
  | c :: columns => .cons (.refl c) (below_refl columns)

theorem Covers.refl (shape : RowShape) : shape.Covers shape.isMeta shape.columns :=
  ⟨rfl, below_refl shape.columns⟩

theorem Covers.trans {s t : RowShape} {isMeta : Bool} {columns : List ColumnInfo}
    (first : s.Covers isMeta columns) (second : t.Covers s.isMeta s.columns) :
    t.Covers isMeta columns :=
  ⟨second.mode.trans first.mode, below_trans first.below second.below⟩

end RowShape

namespace ShapeRegistry

theorem find?_insertShape (shape : RowShape) (row : String) (shapes : List RowShape) :
    (insertShape shape shapes).find? (·.rowType == row) =
      if shape.rowType = row then some shape else shapes.find? (·.rowType == row) := by
  induction shapes with
  | nil => simp [insertShape, List.find?_cons]; split <;> simp_all
  | cons s rest ih =>
      unfold insertShape
      by_cases same : shape.rowType = row
      · rw [if_pos same]
        split
        · simp [same]
        · rename_i other
          split
          · simp [same]
          · have apart : (s.rowType == row) = false := by simpa [same] using other
            rw [List.find?_cons, apart, ih, if_pos same]
      · rw [if_neg same]
        split
        · rename_i replaced
          have apart : (s.rowType == row) = false := by
            rw [eq_of_beq replaced]
            simpa using same
          simp [same, apart]
        · split
          · simp [List.find?_cons, same]
          · rw [List.find?_cons, List.find?_cons, ih, if_neg same]

/-- What a registry knows of a row type, another one covers. -/
def Below (shapes others : ShapeRegistry) : Prop :=
  ∀ row shape, shapes.get? row = some shape →
    ∃ other, others.get? row = some other ∧ other.Covers shape.isMeta shape.columns

theorem Below.refl (shapes : ShapeRegistry) : shapes.Below shapes :=
  fun _ shape known => ⟨shape, known, .refl shape⟩

theorem Below.trans {a b c : ShapeRegistry} (first : a.Below b) (second : b.Below c) :
    a.Below c := by
  intro row shape known
  obtain ⟨other, known, covers⟩ := first row shape known
  obtain ⟨last, known, covers'⟩ := second row other known
  exact ⟨last, known, covers.trans covers'⟩

/-- What one observation makes of a registry: the shape that it is recorded in covers it and what
was known before, and has no types but theirs. -/
theorem record_eq_ok {shapes others : ShapeRegistry} {row : String} {isMeta : Bool}
    {columns : List ColumnInfo} {site : Location} {shape : RowShape}
    (recorded : shapes.record row isMeta columns site = .ok (shape, others)) :
    (∀ name, others.get? name = if name = row then some shape else shapes.get? name) ∧
      shape.Covers isMeta columns ∧
      (∀ known, shapes.get? row = some known → shape.Covers known.isMeta known.columns) ∧
      ∀ c ∈ shape.columns, ∃ d, (d ∈ columns ∨ ∃ known, shapes.get? row = some known ∧
        d ∈ known.columns) ∧ c.valueType = d.valueType := by
  unfold record at recorded
  cases found : shapes.get? row with
  | none =>
      simp only [found, bind, Except.bind, pure, Except.pure, Except.ok.injEq,
        Prod.mk.injEq] at recorded
      obtain ⟨rfl, rfl⟩ := recorded
      refine ⟨fun name => ?_, .refl _, nofun, fun c member => ⟨c, .inl member, rfl⟩⟩
      simp only [get?, find?_insertShape, eq_comm]
  | some known =>
      simp only [found, bind, Except.bind] at recorded
      cases merges : known.merge isMeta columns site with
      | error e => simp [merges] at recorded
      | ok merged =>
          simp only [merges, pure, Except.pure, Except.ok.injEq, Prod.mk.injEq] at recorded
          obtain ⟨rfl, rfl⟩ := recorded
          obtain ⟨rowType, before, now, types⟩ := RowShape.merge_covers merges
          have first : shapes.shapes.find? (·.rowType == row) = some known := found
          have name : known.rowType = row := by simpa using List.find?_some first
          refine ⟨fun other => ?_, now, ?_, ?_⟩
          · simp only [get?, find?_insertShape, rowType, name, eq_comm]
          · rintro _ ⟨⟩
            exact before
          · intro c member
            obtain ⟨d, from_, same⟩ := types c member
            exact ⟨d, from_.symm.imp id fun inside => ⟨known, rfl, inside⟩, same⟩

theorem record_below {shapes others : ShapeRegistry} {row : String} {isMeta : Bool}
    {columns : List ColumnInfo} {site : Location} {shape : RowShape}
    (recorded : shapes.record row isMeta columns site = .ok (shape, others)) :
    shapes.Below others := by
  obtain ⟨get, _, covers, _⟩ := record_eq_ok recorded
  intro name known before
  rw [get]
  by_cases same : name = row
  · subst same
    exact ⟨shape, if_pos rfl, covers known before⟩
  · exact ⟨known, by rw [if_neg same, before], .refl known⟩

end ShapeRegistry

end SqlUnits
