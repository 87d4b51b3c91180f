import Mathlib.Data.List.Nodup
import Mathlib.Data.List.Perm.Subperm
import SqlUnits.Proofs.Artifact.Fields
/-!
Names of discovered fields. A name that is taken gets the first suffix that is free, and the search
for one ends, since only finitely many names are taken. The suffixed names count as taken, too, so
that the names of all fields are distinct whatever the labels of the columns are.
-/

namespace SqlUnits

/-- The search for a free name, from a candidate and the suffix of the next one. -/
inductive FreshSearch (taken : List String) (name : String) : String → Nat → String → Prop
  | free {candidate : String} {n : Nat} : candidate ∉ taken →
      FreshSearch taken name candidate n candidate
  | next {candidate result : String} {n : Nat} : candidate ∈ taken →
      FreshSearch taken name (suffixed name n) (n + 1) result →
      FreshSearch taken name candidate n result

namespace FreshSearch

variable {taken : List String} {name candidate result : String} {n : Nat}

theorem not_mem (search : FreshSearch taken name candidate n result) : result ∉ taken := by
  induction search with
  | free outside => exact outside
  | next _ _ ih => exact ih

theorem unique {other : String} (search : FreshSearch taken name candidate n result)
    (search' : FreshSearch taken name candidate n other) : result = other := by
  induction search with
  | free outside =>
      cases search' with
      | free => rfl
      | next inside => exact absurd inside outside
  | next inside _ ih =>
      cases search' with
      | free outside => exact absurd inside outside
      | next _ search' => exact ih search'

/-- Only what is taken matters, and not the order. -/
theorem congr {other : List String} (same : ∀ s, s ∈ taken ↔ s ∈ other)
    (search : FreshSearch taken name candidate n result) :
    FreshSearch other name candidate n result := by
  induction search with
  | free outside => exact .free (mt (same _).2 outside)
  | next inside _ ih => exact .next ((same _).1 inside) ih

/-- All suffixes below the one that is found are tried. -/
theorem of_least {i : Nat} (inside : candidate ∈ taken)
    (below : ∀ j < i, suffixed name (n + j) ∈ taken) (outside : suffixed name (n + i) ∉ taken) :
    FreshSearch taken name candidate n (suffixed name (n + i)) := by
  induction i generalizing candidate n with
  | zero => exact .next inside (.free outside)
  | succ i ih =>
      have shift (j : Nat) : n + (j + 1) = n + 1 + j := by omega
      rw [shift] at outside ⊢
      refine .next inside (ih (below 0 i.succ_pos) (fun j less => ?_) outside)
      exact shift j ▸ below (j + 1) (Nat.succ_lt_succ less)

end FreshSearch

theorem suffixed_injective (name : String) : Function.Injective (suffixed name) := by
  intro m n same
  have digits : Nat.toDigits 10 m = Nat.toDigits 10 n := by
    have texts := congrArg String.toList same
    simpa [suffixed] using texts
  rw [← Nat.ofDigitChars_ten_toDigits (n := m), digits, Nat.ofDigitChars_ten_toDigits]

/-- Not all of so many suffixes are taken. -/
theorem exists_suffix (taken : List String) (name : String) :
    ∃ i ∈ List.range (taken.length + 1), suffixed name (i + 2) ∉ taken := by
  by_contra none
  push Not at none
  have distinct : ((List.range (taken.length + 1)).map fun i => suffixed name (i + 2)).Nodup :=
    List.nodup_range.map fun m n same => Nat.add_right_cancel (suffixed_injective name same)
  have inside : ((List.range (taken.length + 1)).map fun i => suffixed name (i + 2)) ⊆ taken := by
    intro s member
    obtain ⟨i, among, rfl⟩ := List.mem_map.1 member
    exact none i among
  have fits := (List.subperm_of_subset distinct inside).length_le
  rw [List.length_map, List.length_range] at fits
  omega

/-- The search ends with the fresh name. -/
theorem freshName_search (taken : List String) (name : String) :
    FreshSearch taken name name 2 (freshName taken name) := by
  unfold freshName
  split
  · next free => exact .free (by simpa using free)
  · next clash =>
    have inside : name ∈ taken := by simpa using clash
    split
    · next i found =>
      obtain ⟨outside, -, below⟩ := List.find?_range_eq_some.1 found
      rw [Nat.add_comm i 2]
      refine .of_least inside (fun j less => ?_) (by simpa [Nat.add_comm] using outside)
      simpa [Nat.add_comm] using below j less
    · next none_ =>
      obtain ⟨i, among, free⟩ := exists_suffix taken name
      exact absurd free (by simpa using List.find?_eq_none.1 none_ i among)

theorem freshName_not_mem (taken : List String) (name : String) : freshName taken name ∉ taken :=
  (freshName_search taken name).not_mem

/-! Field by field. -/

theorem fieldsFrom_fresh {isMeta : Bool} {columns : List ColumnInfo} {taken : List String}
    {index : Nat} {fields : List TypedField}
    (made : fieldsFrom isMeta taken index columns = some fields) :
    (fields.map (·.name)).Nodup ∧ ∀ field ∈ fields, field.name ∉ taken := by
  induction columns generalizing taken index fields with
  | nil =>
      cases made
      exact ⟨.nil, nofun⟩
  | cons column rest ih =>
      obtain ⟨type, more, -, read, rfl⟩ := fieldsFrom_eq_cons made
      obtain ⟨distinct, free⟩ := ih read
      refine ⟨List.nodup_cons.2 ⟨?_, distinct⟩, List.forall_mem_cons.2 ⟨freshName_not_mem _ _, ?_⟩⟩
      · intro member
        obtain ⟨field, inside, same⟩ := List.mem_map.1 member
        exact free field inside (same ▸ .head _)
      · exact fun field inside known => free field inside (.tail _ known)

/-- Each name is the first free one of those for the label, with the names of the fields before it
taken. -/
theorem fieldsFrom_search {isMeta : Bool} {columns : List ColumnInfo} {taken : List String}
    {index : Nat} {fields : List TypedField}
    (made : fieldsFrom isMeta taken index columns = some fields) (i : Nat) (column : ColumnInfo)
    (field : TypedField) (at_ : columns[i]? = some column) (at' : fields[i]? = some field) :
    FreshSearch ((fields.take i).map (·.name) ++ taken) (fieldName column.name (index + i))
      (fieldName column.name (index + i)) 2 field.name := by
  induction columns generalizing taken index fields i with
  | nil => cases at_
  | cons first rest ih =>
      obtain ⟨type, more, -, read, rfl⟩ := fieldsFrom_eq_cons made
      cases i with
      | zero =>
          cases at_
          cases at'
          exact freshName_search _ _
      | succ i =>
          have search := ih read i at_ at'
          rw [Nat.add_assoc, Nat.add_comm 1 i] at search
          refine search.congr fun s => ?_
          simp [or_left_comm]

theorem fieldsFrom_eq_none {isMeta : Bool} {columns : List ColumnInfo} (taken : List String)
    (index : Nat) : fieldsFrom isMeta taken index columns = none ↔
      isMeta = false ∧ ∃ column ∈ columns, column.valueType = none := by
  constructor
  · intro missing
    by_contra typed
    have typed : isMeta = true ∨ ∀ column ∈ columns, ∃ type, column.valueType = some type := by
      rw [not_and_or, Bool.not_eq_false] at typed
      refine typed.imp_right fun all column member => Option.ne_none_iff_exists'.1 fun none_ => ?_
      exact all ⟨column, member, none_⟩
    obtain ⟨fields, made⟩ := fieldsFrom_isSome typed taken index
    rw [missing] at made
    cases made
  · rintro ⟨rfl, column, member, untyped⟩
    rw [Option.eq_none_iff_forall_ne_some]
    intro fields made
    obtain ⟨i, inside, rfl⟩ := List.mem_iff_getElem.1 member
    have describes := fieldsFrom_describes made
    obtain ⟨type, -⟩ := describes.get inside (describes.length_eq ▸ inside)
    simp [fieldType?, untyped] at type

/-- The fields discovered in a shape: none exactly if a column of data has no type, else one for
each column, of its type and nullability. Their names are distinct, each the first free one for its
column. -/
theorem RowShape.discoveredFields_names (shape : RowShape) :
    (discoveredFields shape = none ↔
      shape.isMeta = false ∧ ∃ column ∈ shape.columns, column.valueType = none) ∧
    ∀ fields, discoveredFields shape = some fields →
      List.Forall₂ (TypedField.Describes shape.isMeta) shape.columns fields ∧
      (∀ field ∈ fields, IsFieldName field.name.toList) ∧
      (fields.map (·.name)).Nodup ∧
      ∀ i column field, shape.columns[i]? = some column → fields[i]? = some field →
        ∀ name, FreshSearch ((fields.take i).map (·.name)) (fieldName column.name i)
          (fieldName column.name i) 2 name ↔ name = field.name := by
  refine ⟨fieldsFrom_eq_none [] 0, fun fields made => ?_⟩
  refine ⟨fieldsFrom_describes made, fieldsFrom_isFieldName made, (fieldsFrom_fresh made).1,
    fun i column field at_ at' name => ?_⟩
  have search := fieldsFrom_search made i column field at_ at'
  rw [List.append_nil, Nat.zero_add] at search
  exact ⟨fun found => found.unique search, fun same => same ▸ search⟩

/-- Labels that clash, one of them with a suffixed name, and a label without a letter or digit. -/
theorem RowShape.discoveredFields_names_clash :
    let column (label : String) : ColumnInfo := { name := label, valueType := some .long }
    let labels := ["a", "A", "a_2", "Id (x)", "*", "column5"]
    ∃ shape fields, shape.columns = labels.map column ∧ discoveredFields shape = some fields ∧
      fields.map (·.name) = ["a", "a_2", "a_2_2", "id_x", "column5", "column5_2"] ∧
      (fields.map (·.name)).Nodup ∧ ∀ field ∈ fields, IsFieldName field.name.toList := by
  intro column labels
  let shape : RowShape := ⟨"U::R", false, labels.map column, []⟩
  obtain ⟨missing, made⟩ := RowShape.discoveredFields_names shape
  cases found : discoveredFields shape with
  | none =>
      obtain ⟨-, _, member, untyped⟩ := missing.1 found
      obtain ⟨label, -, rfl⟩ := List.mem_map.1 member
      cases untyped
  | some fields =>
      obtain ⟨-, names, distinct, -⟩ := made fields found
      have same : fields.map (·.name) = ["a", "a_2", "a_2_2", "id_x", "column5", "column5_2"] := by
        have names : (discoveredFields shape).map (fun fields => fields.map (·.name)) =
            some ["a", "a_2", "a_2_2", "id_x", "column5", "column5_2"] := by decide +kernel
        rw [found] at names
        exact Option.some.inj names
      exact ⟨shape, fields, rfl, found, same, distinct, names⟩

end SqlUnits
