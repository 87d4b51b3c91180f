import SqlUnits.Proofs.Check.Passing
import SqlUnits.Proofs.Shape.Joining
/-!
Observations of one row type, in any order. A run records them as it comes to them; one that fails
leaves no trace.
-/

namespace SqlUnits

/-- A statement whose observation cannot be recorded changes nothing. -/
theorem Validator.checkRow_refused {v : Validator} {site : Site} {typed : TypedStatement}
    {name : Ident} {columns : List ColumnInfo} {s : CheckState} {e : ShapeMergeError}
    (refused : s.shapes.record (site.unit.qualified name.name)
      (site.statement.convention == .metadata) columns site.location = .error e) :
    (((v.checkRow site typed name columns).run).run s).2 = s := by
  rw [checkRow_run, refused]
  split <;> rfl

namespace ShapeRegistry

/-- Recording does not depend on the order. If the observations of a row type are recorded in one
order they are in any other; what the shape says of the rows is the same, and it is what the
observations say together, those from before first. Other row types stay as they were. An
observation that is refused leaves all shapes as they are. -/
theorem recordAll_perm {registry last : ShapeRegistry} {row : String} {os os' : List Observation}
    (recorded : registry.recordAll row os = .ok last) (perm : os.Perm os') :
    (∃ last', registry.recordAll row os' = .ok last' ∧
      (last'.get? row).map RowShape.content = (last.get? row).map RowShape.content ∧
      last'.Shows row ((registry.get? row).toList ++ os'.map (·.shape row)) ∧
      ∀ other, other ≠ row → last'.get? other = registry.get? other) ∧
    ∀ (v : Validator) (site : Site) (typed : TypedStatement) (name : Ident)
      (columns : List ColumnInfo) (s : CheckState) (e : ShapeMergeError),
      s.shapes.record (site.unit.qualified name.name)
          (site.statement.convention == .metadata) columns site.location = .error e →
        (((v.checkRow site typed name columns).run).run s).2 = s := by
  refine ⟨?_, fun _ _ _ _ _ _ _ refused => Validator.checkRow_refused refused⟩
  have start := registry.shows_toList row
  have agreed : (registry.get? row).toList.Pairwise RowShape.Agrees := by
    cases registry.get? row <;> simp
  have perm' : ((registry.get? row).toList ++ os.map (·.shape row)).Perm
      ((registry.get? row).toList ++ os'.map (·.shape row)) := (perm.map _).append_left _
  have pairs := (recordAll_isOk start agreed).1 ⟨last, recorded⟩
  rw [perm'.pairwise_iff RowShape.Agrees.symm] at pairs
  obtain ⟨last', recorded'⟩ := (recordAll_isOk start agreed).2 pairs
  obtain ⟨shows, _⟩ := recordAll_shows start recorded
  obtain ⟨shows', kept⟩ := recordAll_shows start recorded'
  exact ⟨last', recorded', shows'.content_eq shows perm'.symm, shows', kept⟩

theorem recordAll_perm_widened :
    let first : Observation :=
      ⟨false, [{ name := "n", valueType := some .int, nullable := .no }], .atLine "a" 3⟩
    let second : Observation := ⟨false, [{ name := "m", displaySize := 9 }], .atLine "a" 5⟩
    let third : Observation :=
      ⟨false, [{ name := "k", valueType := some .double, nullable := .no, sqlType := some "REAL" }],
        .atLine "b" 2⟩
    ∃ last', recordAll {} "U::R" [third, first, second] = .ok last' ∧
      (last'.get? "U::R").map RowShape.content =
        some (false, [(some .double, .unknown, 9, 0, 0)]) ∧
      last'.Shows "U::R" ([third, first, second].map (·.shape "U::R")) := by
  intro first second third
  obtain ⟨last, recorded, content⟩ : ∃ last,
      recordAll {} "U::R" [first, second, third] = .ok last ∧
        (last.get? "U::R").map RowShape.content =
          some (false, [(some .double, .unknown, 9, 0, 0)]) := ⟨_, rfl, rfl⟩
  have perm : [first, second, third].Perm [third, first, second] := by decide
  obtain ⟨⟨last', recorded', same, shows, _⟩, _⟩ := recordAll_perm recorded perm
  exact ⟨last', recorded', same.trans content, shows⟩

end ShapeRegistry

end SqlUnits
