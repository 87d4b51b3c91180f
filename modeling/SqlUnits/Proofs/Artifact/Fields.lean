import Mathlib.Data.List.Forall2
import SqlUnits.Artifact.Code
import SqlUnits.Artifact.TypedUnit
import SqlUnits.Proofs.Unit.Reading
/-!
Discovered field lists can be written into a unit: their names are identifiers, and the names of
their types are read as these types. Of rows that are declared so the artifact says the same, but
that they are declared, and the code is the same.
-/

namespace SqlUnits

open Scanner

namespace ValueType

/-- The name of a type is an identifier that stands for it, and for nothing else. -/
structure IsWritten (type : ValueType) : Prop where
  name : IsName type.name.toList
  known : ofName type.name = type
  notMeta : type.name ≠ "meta"
  notHole : type.name ≠ "_"

theorem isName_name : ∀ type ∈ builtins, IsName type.name.toList := by
  decide

theorem isWritten : ∀ type ∈ builtins, type.IsWritten := by
  intro type member
  have checked : ∀ type ∈ builtins,
      ofName type.name = type ∧ type.name ≠ "meta" ∧ type.name ≠ "_" := by decide
  obtain ⟨known, notMeta, notHole⟩ := checked type member
  exact ⟨isName_name type member, known, notMeta, notHole⟩

end ValueType

/-- A field of a list that is read back as it is written. -/
structure TypedField.IsWritten (field : TypedField) : Prop where
  name : IsName field.name.toList
  type : IsName field.type.name.toList
  known : FieldType.ofName field.type.name = field.type

/-! The names of discovered fields. -/

/-- A small letter or a digit. -/
def isSmall (c : Char) : Bool :=
  Text.isLower c || Text.isDigit c

/-- A name of small letters, digits and `_`, of which the first one is a letter. -/
structure IsFieldName (chars : Text) : Prop where
  start : chars.head?.any Text.isLower = true
  all : ∀ c ∈ chars, (isSmall c || c == '_') = true

theorem isSmall_lower {c : Char} (plain : Text.isLetter c || Text.isDigit c) :
    isSmall (Text.lower c) = true := by
  unfold Text.lower
  split
  · rename_i upper
    have bounds : 65 ≤ c.toNat ∧ c.toNat < 91 := by
      simp only [Text.isUpper, Bool.and_eq_true, decide_eq_true_eq, Char.le_def,
        UInt32.le_iff_toNat_le] at upper
      exact ⟨upper.1, Nat.lt_succ_of_le upper.2⟩
    have letters : ∀ n < 91, 65 ≤ n → isSmall (Char.ofNat (n + 32)) = true := by
      decide
    exact letters c.toNat bounds.2 bounds.1
  · rename_i noUpper
    simpa [isSmall, Text.isLetter, noUpper] using plain

theorem isIdentChar_of_small {c : Char} (small : (isSmall c || c == '_') = true) :
    Text.isIdentChar c = true := by
  simp only [isSmall, Bool.or_eq_true] at small
  simp only [Text.isIdentChar, Text.isLetter, Bool.or_eq_true]
  exact small.imp_left (Or.imp_left .inl)

theorem isIdentChar_lower {c : Char} (plain : Text.isLetter c || Text.isDigit c) :
    Text.isIdentChar (Text.lower c) = true :=
  isIdentChar_of_small (by rw [isSmall_lower plain, Bool.true_or])

/-- Words are joined, so that the first character is none that joins them. -/
theorem labelWords_small (gap : Bool) (acc cs : Text)
    (all : ∀ c ∈ acc, (isSmall c || c == '_') = true)
    (first : ∀ c ∈ acc.getLast?, isSmall c = true) :
    (∀ c ∈ labelWords gap acc cs, (isSmall c || c == '_') = true) ∧
      ∀ c ∈ (labelWords gap acc cs).head?, isSmall c = true := by
  fun_induction labelWords gap acc cs with
  | case1 gap acc => exact ⟨by simpa using all, by rwa [List.head?_reverse]⟩
  | case2 gap acc c rest plain acc' ih =>
      have small := isSmall_lower plain
      refine ih (List.forall_mem_cons.2 ⟨by rw [small, Bool.true_or], ?_⟩) ?_
      · simp only [acc']
        split
        · exact List.forall_mem_cons.2 ⟨by decide, all⟩
        · exact all
      · cases acc with
        | nil => simpa [acc'] using small
        | cons d acc =>
            have last : (Text.lower c :: acc').getLast? = (d :: acc).getLast? := by
              simp only [acc']
              split <;> simp [List.getLast?_cons_cons]
            rwa [last]
  | case3 gap acc c rest _ ih => exact ih all first

namespace IsFieldName

variable {name : String}

theorem isName {chars : Text} (isFieldName : IsFieldName chars) : IsName chars := by
  obtain ⟨start, all⟩ := isFieldName
  cases chars with
  | nil => cases start
  | cons c chars =>
      refine ⟨by simp, fun d member => isIdentChar_of_small (all d member), ?_⟩
      have letter : Text.isLower c = true := start
      have bounds : 97 ≤ c.toNat := by
        simp only [Text.isLower, Bool.and_eq_true, decide_eq_true_eq, Char.le_def,
          UInt32.le_iff_toNat_le] at letter
        exact letter.1
      show Text.isDigit c = false
      simp only [Text.isDigit, Bool.and_eq_false_iff, decide_eq_false_iff_not, Char.le_def,
        UInt32.le_iff_toNat_le]
      refine .inr fun digit => ?_
      have digit : c.toNat ≤ 57 := digit
      omega

theorem append {start more : Text} (name : IsFieldName start)
    (all : ∀ c ∈ more, (isSmall c || c == '_') = true) : IsFieldName (start ++ more) := by
  obtain ⟨first, allStart⟩ := name
  refine ⟨?_, List.forall_mem_append.2 ⟨allStart, all⟩⟩
  cases start with
  | nil => cases first
  | cons => exact first

theorem number (n : Nat) : ∀ c ∈ (toString n).toList, (isSmall c || c == '_') = true := by
  have digits : (toString n).toList = Nat.toDigits 10 n := Nat.toList_repr
  rw [digits]
  intro c member
  rw [isSmall, Text.isDigit_of_mem_toDigits member, Bool.or_true, Bool.true_or]

theorem fieldName (label : String) (index : Nat) : IsFieldName (fieldName label index).toList := by
  obtain ⟨all, first⟩ := labelWords_small false [] label.toList nofun nofun
  unfold SqlUnits.fieldName
  cases found : labelWords false [] label.toList with
  | nil =>
      rw [String.toList_append]
      have column : IsFieldName "column".toList := ⟨by decide, List.all_eq_true.1 (by decide)⟩
      exact column.append (number _)
  | cons c rest =>
      rw [found] at all first
      simp only [String.toList_ofList]
      split
      · exact ⟨rfl, List.forall_mem_cons.2 ⟨by decide, all⟩⟩
      · rename_i noDigit
        have small : isSmall c = true := first c rfl
        exact ⟨by simpa [isSmall, noDigit] using small, all⟩

theorem suffixed (isFieldName : IsFieldName name.toList) (n : Nat) :
    IsFieldName (suffixed name n).toList := by
  unfold SqlUnits.suffixed
  rw [String.toList_append, String.toList_append]
  exact (isFieldName.append (List.all_eq_true.1 (by decide))).append (number n)

theorem freshName (isFieldName : IsFieldName name.toList) (taken : List String) :
    IsFieldName (freshName taken name).toList := by
  unfold SqlUnits.freshName
  split
  · exact isFieldName
  · split
    · exact isFieldName.suffixed _
    · exact isFieldName

end IsFieldName

/-- The columns are only described, or have built-in types. -/
def ColumnsTyped (isMeta : Bool) (columns : List ColumnInfo) : Prop :=
  isMeta = true ∨
    ∀ column ∈ columns, ∃ type ∈ ValueType.builtins, column.valueType = some type

/-- A shape whose fields can be written. -/
def RowShape.IsWritten (shape : RowShape) : Prop :=
  shape.columns ≠ [] ∧ ColumnsTyped shape.isMeta shape.columns

/-- The type of the field for a column. -/
def fieldType? (isMeta : Bool) (column : ColumnInfo) : Option FieldType :=
  if isMeta then some .descriptor else column.valueType.map .value

theorem fieldsFrom_cons {isMeta : Bool} {taken : List String} {index : Nat}
    {column : ColumnInfo} {rest : List ColumnInfo} {type : FieldType} {more : List TypedField}
    (known : fieldType? isMeta column = some type)
    (read : fieldsFrom isMeta (freshName taken (fieldName column.name index) :: taken)
      (index + 1) rest = some more) :
    fieldsFrom isMeta taken index (column :: rest) =
      some (⟨freshName taken (fieldName column.name index), type, column.nullable⟩ :: more) := by
  cases isMeta with
  | true =>
      cases known
      simp [fieldsFrom, read]
  | false =>
      have known : column.valueType.map FieldType.value = some type := known
      simp [fieldsFrom, read, known]

theorem fieldsFrom_eq_cons {isMeta : Bool} {taken : List String} {index : Nat}
    {column : ColumnInfo} {rest : List ColumnInfo} {fields : List TypedField}
    (made : fieldsFrom isMeta taken index (column :: rest) = some fields) :
    ∃ type more, fieldType? isMeta column = some type ∧
      fieldsFrom isMeta (freshName taken (fieldName column.name index) :: taken) (index + 1) rest =
        some more ∧
      fields = ⟨freshName taken (fieldName column.name index), type, column.nullable⟩ :: more := by
  have whole : fieldsFrom isMeta taken index (column :: rest) =
      (fieldType? isMeta column).bind fun type =>
        (fieldsFrom isMeta (freshName taken (fieldName column.name index) :: taken)
          (index + 1) rest).bind fun more =>
        some (⟨freshName taken (fieldName column.name index), type, column.nullable⟩ :: more) := by
    cases isMeta <;> rfl
  rw [whole] at made
  obtain ⟨type, known, made⟩ := Option.bind_eq_some_iff.1 made
  obtain ⟨more, read, made⟩ := Option.bind_eq_some_iff.1 made
  exact ⟨type, more, known, read, (Option.some.inj made).symm⟩

theorem fieldsFrom_isFieldName {isMeta : Bool} {columns : List ColumnInfo} {taken : List String}
    {index : Nat} {fields : List TypedField}
    (made : fieldsFrom isMeta taken index columns = some fields) :
    ∀ field ∈ fields, IsFieldName field.name.toList := by
  induction columns generalizing taken index fields with
  | nil =>
      cases made
      nofun
  | cons column rest ih =>
      obtain ⟨type, more, -, read, rfl⟩ := fieldsFrom_eq_cons made
      exact List.forall_mem_cons.2 ⟨(IsFieldName.fieldName _ _).freshName _, ih read⟩

theorem fieldsFrom_isName {isMeta : Bool} {columns : List ColumnInfo} {taken : List String}
    {index : Nat} {fields : List TypedField}
    (made : fieldsFrom isMeta taken index columns = some fields) :
    ∀ field ∈ fields, IsName field.name.toList :=
  fun field member => (fieldsFrom_isFieldName made field member).isName

/-- What a discovered field has of its column. -/
def TypedField.Describes (isMeta : Bool) (column : ColumnInfo) (field : TypedField) : Prop :=
  fieldType? isMeta column = some field.type ∧ field.nullable = column.nullable

theorem fieldsFrom_describes {isMeta : Bool} {columns : List ColumnInfo} {taken : List String}
    {index : Nat} {fields : List TypedField}
    (made : fieldsFrom isMeta taken index columns = some fields) :
    List.Forall₂ (TypedField.Describes isMeta) columns fields := by
  induction columns generalizing taken index fields with
  | nil =>
      cases made
      exact .nil
  | cons column rest ih =>
      obtain ⟨type, more, known, read, rfl⟩ := fieldsFrom_eq_cons made
      exact .cons ⟨known, rfl⟩ (ih read)

/-- Only a column without a type has no field. -/
theorem fieldsFrom_isSome {isMeta : Bool} {columns : List ColumnInfo}
    (typed : isMeta = true ∨ ∀ column ∈ columns, ∃ type, column.valueType = some type)
    (taken : List String) (index : Nat) :
    ∃ fields, fieldsFrom isMeta taken index columns = some fields := by
  induction columns generalizing taken index with
  | nil => exact ⟨[], rfl⟩
  | cons column rest ih =>
      have field : ∃ type, fieldType? isMeta column = some type := by
        rcases typed with rfl | typed
        · exact ⟨.descriptor, rfl⟩
        · obtain ⟨type, known⟩ := typed column (.head rest)
          cases isMeta with
          | true => exact ⟨.descriptor, rfl⟩
          | false => exact ⟨.value type, by simp [fieldType?, known]⟩
      obtain ⟨type, known⟩ := field
      obtain ⟨more, read⟩ := ih (typed.imp_right fun all x member => all x (.tail column member))
        (freshName taken (fieldName column.name index) :: taken) (index + 1)
      exact ⟨_, fieldsFrom_cons known read⟩

theorem TypedField.Describes.type_isWritten {isMeta : Bool} {column : ColumnInfo}
    {field : TypedField} (describes : field.Describes isMeta column)
    (known : isMeta = true ∨
      ∀ type, column.valueType = some type → type ∈ ValueType.builtins) :
    IsName field.type.name.toList ∧ FieldType.ofName field.type.name = field.type := by
  obtain ⟨type, -⟩ := describes
  unfold fieldType? at type
  split at type
  · rw [← Option.some.inj type]
    exact ⟨by decide, rfl⟩
  · rename_i data
    have known := known.resolve_left data
    obtain ⟨t, found, same⟩ := Option.map_eq_some_iff.1 type
    have written := ValueType.isWritten t (known t found)
    rw [← same]
    exact ⟨written.name, by simp [FieldType.ofName, FieldType.name, written.notMeta, written.known]⟩

theorem RowShape.IsWritten.discoveredFields {shape : RowShape} (isWritten : shape.IsWritten) :
    ∃ fields, discoveredFields shape = some fields ∧ fields ≠ [] ∧
      ∀ field ∈ fields, field.IsWritten := by
  obtain ⟨nonempty, typed⟩ := isWritten
  obtain ⟨fields, read⟩ := fieldsFrom_isSome
    (typed.imp_right fun all column member => (all column member).imp fun _ known => known.2) [] 0
  have describes := fieldsFrom_describes read
  refine ⟨fields, read, ?_, fun field member => ?_⟩
  · rintro rfl
    exact nonempty (List.forall₂_nil_right_iff.1 describes)
  · obtain ⟨i, inside, rfl⟩ := List.mem_iff_getElem.1 member
    have inside' : i < shape.columns.length := describes.length_eq.symm ▸ inside
    have builtin : shape.isMeta = true ∨
        ∀ type, shape.columns[i].valueType = some type → type ∈ ValueType.builtins := by
      refine typed.imp_right fun all type found => ?_
      obtain ⟨type', builtin, found'⟩ := all _ (List.getElem_mem inside')
      rwa [← Option.some.inj (found.symm.trans found')] at builtin
    obtain ⟨type, same⟩ := (describes.get inside' inside).type_isWritten builtin
    exact ⟨fieldsFrom_isName read _ member, type, same⟩

/-! Rows whose discovered fields are declared. -/

theorem TypedField.Describes.isDescriptor {isMeta : Bool} {columns : List ColumnInfo}
    {fields : List TypedField} (describes : List.Forall₂ (Describes isMeta) columns fields) :
    ∀ field ∈ fields, (field.type == .descriptor) = isMeta := by
  induction describes with
  | nil => nofun
  | @cons column field columns fields one _ ih =>
      intro other member
      rcases List.mem_cons.1 member with rfl | member
      · obtain ⟨type, _⟩ := one
        cases isMeta with
        | true => exact beq_iff_eq.2 (Option.some.inj type).symm
        | false =>
            obtain ⟨t, _, same⟩ := Option.map_eq_some_iff.1 type
            rw [← same]
            rfl
      · exact ih other member

/-- A shape has fields that can be written as soon as fields were discovered in it. -/
theorem RowShape.isWritten_of_discovered {shape : RowShape} {fields : List TypedField}
    (made : discoveredFields shape = some fields) (some_ : fields ≠ [])
    (known : ∀ column ∈ shape.columns, ∀ t, column.valueType = some t →
      t ∈ ValueType.builtins) : shape.IsWritten := by
  have describes := fieldsFrom_describes made
  refine ⟨?_, ?_⟩
  · rintro empty
    rw [empty] at describes
    cases describes
    exact some_ rfl
  · cases mode : shape.isMeta with
    | true => exact .inl rfl
    | false =>
        rw [mode] at describes
        refine .inr fun column member => ?_
        obtain ⟨i, inside, rfl⟩ := List.mem_iff_getElem.1 member
        obtain ⟨type, _⟩ := describes.get inside (describes.length_eq ▸ inside)
        obtain ⟨t, known', _⟩ := Option.map_eq_some_iff.1 type
        exact ⟨t, known _ member t known', known'⟩

/-- A row without what is said of where its fields are written. -/
def TypedRow.unmarked (row : TypedRow) : TypedRow :=
  { row with declared := false }

/-- A unit without what is said of where the fields of its rows are written. -/
def TypedUnit.unmarked (unit : TypedUnit) : TypedUnit :=
  { unit with rows := unit.rows.map (·.unmarked) }

theorem TypedRow.ofDeclared_discovered (name : String) (line : Nat) {shape : RowShape}
    {fields : List TypedField} (made : discoveredFields shape = some fields)
    (some_ : fields ≠ []) :
    (ofDeclared name (fields.map fun f => ⟨f.name, f.type, line⟩) (some shape)).unmarked =
      ⟨name, shape.isMeta, false, fields⟩ := by
  have describes := fieldsFrom_describes made
  have marks := TypedField.Describes.isDescriptor describes
  have isMeta : (fields.map fun f => (⟨f.name, f.type, line⟩ : FieldDecl)).all
      (·.type == .descriptor) = shape.isMeta := by
    rw [List.all_map]
    cases fields with
    | nil => exact absurd rfl some_
    | cons field fields =>
        cases mode : shape.isMeta with
        | true => exact List.all_eq_true.2 fun f member => (marks f member).trans mode
        | false =>
            rw [mode] at marks
            simp [marks field (.head fields)]
  simp only [ofDeclared, unmarked, TypedRow.mk.injEq, true_and]
  refine ⟨isMeta, List.ext_getElem (by simp) fun i low high => ?_⟩
  have inside : i < shape.columns.length := describes.length_eq.symm ▸ high
  have nullable : fields[i].nullable = shape.columns[i].nullable :=
    (describes.get inside high).2
  simp [inside, ← nullable]

/-! Code says nothing of where fields are written. -/

theorem TypedUnit.row?_unmarked (unit : TypedUnit) (name : String) :
    unit.unmarked.row? name = (unit.row? name).map (·.unmarked) :=
  List.find?_map

namespace Code

theorem call_unmarked (unit : TypedUnit) : call unit.unmarked = call unit := by
  funext method statement
  have row : rowName unit.unmarked statement = rowName unit statement := by
    unfold rowName
    cases statement.row with
    | none => rfl
    | some name =>
        dsimp only
        rw [unit.row?_unmarked]
        cases unit.row? name <;> rfl
  unfold call
  rw [row]

theorem accessModule_unmarked (unit : TypedUnit) (rowNamespace : String) :
    accessModule unit.unmarked rowNamespace = accessModule unit rowNamespace := by
  have rows : unit.unmarked.rows.isEmpty = unit.rows.isEmpty := List.isEmpty_map
  unfold accessModule
  simp only [call_unmarked, rows]
  rfl

theorem rowModule_unmarked (unit : TypedUnit) : rowModule unit.unmarked = rowModule unit := by
  unfold rowModule
  simp only [TypedUnit.unmarked, List.any_map, List.map_map]
  rfl

theorem unitFiles_unmarked (rowNamespace : String) (unit : TypedUnit) :
    unitFiles rowNamespace unit.unmarked = unitFiles rowNamespace unit := by
  unfold unitFiles
  rw [accessModule_unmarked, rowModule_unmarked]
  rfl

/-- Code is the same whether the fields of rows were declared or discovered. -/
theorem generate_unmarked (units : List TypedUnit) (rowNamespace : String) :
    generate (units.map (·.unmarked)) rowNamespace = generate units rowNamespace := by
  have files : unitFiles rowNamespace ∘ (·.unmarked) = unitFiles rowNamespace :=
    funext (unitFiles_unmarked rowNamespace)
  unfold generate
  rw [List.mapM_map, List.map_map, files]
  rfl

end Code

end SqlUnits
