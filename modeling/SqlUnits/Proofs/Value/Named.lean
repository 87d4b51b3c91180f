import SqlUnits.Value.Kind
/-!
Types by their names. Every name stands for a type, and a type that some name stands for has that
name.
-/

namespace SqlUnits

namespace ValueType

/-- A type that a name stands for. -/
def IsNamed (type : ValueType) : Prop :=
  ∃ name, ofName name = type

theorem name_ofName (name : String) : (ofName name).name = name := by
  unfold ofName
  cases found : builtins.find? (·.name == name) with
  | none => rfl
  | some type =>
      have same := List.find?_some found
      exact beq_iff_eq.1 same

theorem ofName_name {type : ValueType} (named : type.IsNamed) : ofName type.name = type := by
  obtain ⟨name, rfl⟩ := named
  rw [name_ofName]

end ValueType

namespace FieldType

/-- A field type that a name stands for. -/
def IsNamed (type : FieldType) : Prop :=
  ∃ name, ofName name = type

theorem name_ofName (name : String) : (ofName name).name = name := by
  unfold ofName
  split
  · next isMeta => exact (beq_iff_eq.1 isMeta).symm
  · exact ValueType.name_ofName name

theorem ofName_name {type : FieldType} (named : type.IsNamed) : ofName type.name = type := by
  obtain ⟨name, rfl⟩ := named
  rw [name_ofName]

end FieldType

end SqlUnits
