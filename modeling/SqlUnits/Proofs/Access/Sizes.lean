import SqlUnits.Access.Column
import SqlUnits.Proofs.Number.Integer
/-!
The sizes that columns are described with. All of them have 32 bits. A sign and a point are added to
the precision of a number to give its display size, so that the digits of a number fit its display
size exactly if this sum has 32 bits, too.
-/

namespace SqlUnits

theorem Text.splitOnce?_char {c : Char} {before : Text} (absent : c ∉ before) (after : Text) :
    splitOnce? [c] (before ++ c :: after) = some (before, after) := by
  induction before with
  | nil => simp [splitOnce?]
  | cons d before ih =>
      obtain ⟨other, absent⟩ := not_or.1 (mt List.mem_cons.2 absent)
      simp [splitOnce?, other, ih absent]

theorem splitCommas_append {part : Text} (noComma : ',' ∉ part) (acc rest : Text) :
    splitCommas acc (part ++ rest) = splitCommas (part.reverse ++ acc) rest := by
  induction part generalizing acc with
  | nil => rfl
  | cons c part ih =>
      obtain ⟨other, noComma⟩ := not_or.1 (mt List.mem_cons.2 noComma)
      have step : splitCommas acc (c :: (part ++ rest)) =
          splitCommas (c :: acc) (part ++ rest) := by
        rw [splitCommas]
        rintro rfl
        exact other rfl
      rw [List.cons_append, step, ih noComma, List.reverse_cons, List.append_assoc]
      rfl

theorem displaySizeOf_eq {precision : Nat} (fits : precision + 2 < twoPow 32) :
    displaySizeOf precision = precision + 2 :=
  Nat.mod_eq_of_lt fits

/-- A sum that does not fit is less than the precision itself. -/
theorem displaySizeOf_lt {precision : Nat} (word : precision < twoPow 32)
    (large : twoPow 32 ≤ precision + 2) : displaySizeOf precision < precision := by
  change precision < 4294967296 at word
  change 4294967296 ≤ precision + 2 at large
  show (precision + 2) % 4294967296 < precision
  omega

/-- The sizes in a declaration have 32 bits. -/
theorem sizeOfDecl_word {decl : String} {precision : Nat} {scale : Option Nat}
    (sized : sizeOfDecl decl = some (precision, scale)) :
    precision < twoPow 32 ∧ ∀ n ∈ scale, n < twoPow 32 := by
  unfold sizeOfDecl at sized
  simp only [Option.bind_eq_bind, Option.bind_eq_some_iff] at sized
  obtain ⟨⟨_, rest⟩, -, ⟨inside, _⟩, -, sized⟩ := sized
  split at sized
  · cases sized
  · obtain ⟨length, read, same⟩ := Option.bind_eq_some_iff.1 sized
    cases same
    exact ⟨(Text.toNatBelow?_eq_some.1 read).2, nofun⟩
  · obtain ⟨length, read, more⟩ := Option.bind_eq_some_iff.1 sized
    obtain ⟨n, read', same⟩ := Option.bind_eq_some_iff.1 more
    cases same
    refine ⟨(Text.toNatBelow?_eq_some.1 read).2, fun _ same => ?_⟩
    cases same
    exact (Text.toNatBelow?_eq_some.1 read').2

/-- A declared number type. -/
def numberDecl (name : String) (precision scale : Nat) : String :=
  name ++ "(" ++ toString precision ++ "," ++ toString scale ++ ")"

theorem trim_toString (n : Nat) : Text.trim (toString n).toList = (toString n).toList := by
  have dense : ∀ c ∈ (toString n).toList, Text.isBlank c = false := fun c member =>
    Text.isBlank_of_isIdentChar ((Text.number_isIdent n).2 c member)
  refine Text.trim_of_solid ?_ ?_
  · cases first : (toString n).toList.head? with
    | none => rfl
    | some c => exact dense c (List.mem_of_head? first)
  · cases last : (toString n).toList.getLast? with
    | none => rfl
    | some c => exact dense c (List.mem_of_getLast? last)

/-- Whatever sizes of 32 bits are declared are read. -/
theorem sizeOfDecl_numberDecl {name : String} (noParen : '(' ∉ name.toList) {precision scale : Nat}
    (word : precision < twoPow 32) (word' : scale < twoPow 32) :
    sizeOfDecl (numberDecl name precision scale) = some (precision, some scale) := by
  have absent (n : Nat) (c : Char) (other : Text.isIdentChar c = false) :
      c ∉ (toString n).toList := by
    intro member
    rw [(Text.number_isIdent n).2 c member] at other
    cases other
  have whole : (numberDecl name precision scale).toList =
      name.toList ++ '(' :: (((toString precision).toList ++ ',' :: (toString scale).toList) ++
        ')' :: []) := by
    simp [numberDecl]
  have closed : ')' ∉ (toString precision).toList ++ ',' :: (toString scale).toList := by
    rw [List.mem_append, List.mem_cons, not_or, not_or]
    exact ⟨absent precision ')' rfl, by decide, absent scale ')' rfl⟩
  have parts : splitCommas [] ((toString precision).toList ++ ',' :: (toString scale).toList) =
      [(toString precision).toList, (toString scale).toList] := by
    have last := splitCommas_append (absent scale ',' rfl) [] []
    rw [List.append_nil] at last
    rw [splitCommas_append (absent precision ',' rfl), splitCommas, last]
    simp [splitCommas]
  unfold sizeOfDecl
  rw [whole, Text.splitOnce?_char noParen]
  simp only [Option.bind_eq_bind, Option.bind_some, Text.splitOnce?_char closed, parts,
    trim_toString, Text.toNatBelow?_toString word, Text.toNatBelow?_toString word']
  rfl

theorem defaultSize_le (type : ValueType) :
    (defaultSize type).2 ≤ (defaultSize type).1 ∧ (defaultSize type).1 < twoPow 32 := by
  cases type with
  | custom name => exact ⟨Nat.le_refl _, by show 0 < twoPow 32; decide⟩
  | _ => decide

/-- The sizes of a column that is described, by the sizes in its declaration. -/
inductive SizedBy (info : ColumnInfo) : Option (Nat × Option Nat) → Prop
  | number {scale : Nat} : info.scale = scale → info.displaySize = displaySizeOf info.precision →
      SizedBy info (some (info.precision, some scale))
  | length : info.scale = 0 → info.displaySize = info.precision →
      SizedBy info (some (info.precision, none))
  | absent : info.scale = 0 → info.precision ≤ info.displaySize → info.displaySize < twoPow 32 →
      SizedBy info none

theorem describeColumn_sizedBy (column : DeclaredColumn) (sample : Option Stored) :
    SizedBy (describeColumn column sample) (column.declType.bind sizeOfDecl) := by
  unfold describeColumn
  dsimp only
  rcases column.declType.bind sizeOfDecl with _ | ⟨precision, _ | scale⟩
  · refine .absent rfl ?_ ?_
    all_goals
      dsimp only
      rcases column.declType.bind typeOfDecl <|> sample.bind Stored.valueType? with _ | type
    · decide
    · exact (defaultSize_le type).1
    · decide
    · exact (defaultSize_le type).2
  · exact .length rfl rfl
  · exact .number rfl rfl

/-- A column whose declared precision leaves no room for a sign and a point. -/
def DeclaredColumn.Overflows (column : DeclaredColumn) : Prop :=
  ∃ precision scale, column.declType.bind sizeOfDecl = some (precision, some scale) ∧
    twoPow 32 ≤ precision + 2

theorem describeColumn_words (column : DeclaredColumn) (sample : Option Stored) :
    (describeColumn column sample).displaySize < twoPow 32 ∧
      (describeColumn column sample).precision < twoPow 32 ∧
      (describeColumn column sample).scale < twoPow 32 := by
  have sized := describeColumn_sizedBy column sample
  have word {size : Nat × Option Nat} (read : column.declType.bind sizeOfDecl = some size) :
      size.1 < twoPow 32 ∧ ∀ n ∈ size.2, n < twoPow 32 := by
    obtain ⟨decl, -, read⟩ := Option.bind_eq_some_iff.1 read
    exact sizeOfDecl_word read
  have zero : 0 < twoPow 32 := by decide
  generalize describeColumn column sample = info at sized ⊢
  generalize found : column.declType.bind sizeOfDecl = size at sized
  cases sized with
  | number scale display =>
      obtain ⟨precision, scales⟩ := word found
      rw [display, scale]
      exact ⟨Nat.mod_lt _ zero, precision, scales _ rfl⟩
  | length scale display =>
      rw [display, scale]
      exact ⟨(word found).1, (word found).1, zero⟩
  | absent scale wide display =>
      rw [scale]
      exact ⟨display, Nat.lt_of_le_of_lt wide display, zero⟩

/-- The digits of a column do not fit its display size exactly if the sum overflows. -/
theorem describeColumn_narrow (column : DeclaredColumn) (sample : Option Stored) :
    (describeColumn column sample).displaySize < (describeColumn column sample).precision ↔
      column.Overflows := by
  have sized := describeColumn_sizedBy column sample
  have word := (describeColumn_words column sample).2.1
  unfold DeclaredColumn.Overflows
  generalize describeColumn column sample = info at sized word ⊢
  generalize column.declType.bind sizeOfDecl = size at sized ⊢
  cases sized with
  | number scale display =>
      rw [display]
      constructor
      · intro narrow
        refine ⟨_, _, rfl, ?_⟩
        by_contra fits
        rw [displaySizeOf_eq (Nat.lt_of_not_le fits)] at narrow
        omega
      · rintro ⟨precision, scale, same, large⟩
        cases same
        exact displaySizeOf_lt word large
  | length scale display =>
      refine ⟨fun narrow => absurd narrow (by omega), ?_⟩
      rintro ⟨precision, scale, same, -⟩
      cases same
  | absent scale wide display =>
      refine ⟨fun narrow => absurd narrow (by omega), ?_⟩
      rintro ⟨precision, scale, same, -⟩
      cases same

/-- The display size of a number has room for its digits, a sign and a point unless their sum has
more than 32 bits. Then it is less than the precision, as it is for no other column. There is a
declaration for each precision and each scale of 32 bits, so that the sum can overflow. -/
theorem describeColumn_sizes (column : DeclaredColumn) (sample : Option Stored) :
    let info := describeColumn column sample
    (info.displaySize < twoPow 32 ∧ info.precision < twoPow 32 ∧ info.scale < twoPow 32) ∧
    (∀ precision scale, column.declType.bind sizeOfDecl = some (precision, some scale) →
      info.precision = precision ∧ info.scale = scale ∧
        (info.displaySize = precision + 2 ↔ precision + 2 < twoPow 32)) ∧
    (∀ length, column.declType.bind sizeOfDecl = some (length, none) →
      info.precision = length ∧ info.scale = 0 ∧ info.displaySize = length) ∧
    (info.displaySize < info.precision ↔ column.Overflows) ∧
    ∀ name : String, '(' ∉ name.toList → ∀ precision < twoPow 32, ∀ scale < twoPow 32,
      sizeOfDecl (numberDecl name precision scale) = some (precision, some scale) := by
  intro info
  have sized : SizedBy info (column.declType.bind sizeOfDecl) :=
    describeColumn_sizedBy column sample
  have words : info.displaySize < twoPow 32 ∧ info.precision < twoPow 32 ∧ info.scale < twoPow 32 :=
    describeColumn_words column sample
  refine ⟨words, fun precision scale declared => ?_, fun length declared => ?_,
    describeColumn_narrow column sample, fun name noParen precision word scale word' =>
      sizeOfDecl_numberDecl noParen word word'⟩
  · rw [declared] at sized
    cases sized with
    | number same display =>
        refine ⟨rfl, same, fun room => room ▸ words.1, fun fits => ?_⟩
        rw [display, displaySizeOf_eq fits]
  · rw [declared] at sized
    cases sized with
    | length none display => exact ⟨rfl, none, display⟩

theorem describeColumn_sizes_decimal :
    let info := describeColumn ⟨"price", some (numberDecl "DECIMAL" 10 2)⟩ none
    info.precision = 10 ∧ info.scale = 2 ∧ info.displaySize = 12 := by
  intro info
  obtain ⟨-, number, -, -, declared⟩ :=
    describeColumn_sizes ⟨"price", some (numberDecl "DECIMAL" 10 2)⟩ none
  obtain ⟨precision, scale, room⟩ :=
    number 10 2 (declared "DECIMAL" (by decide) 10 (by decide) 2 (by decide))
  exact ⟨precision, scale, room.2 (by decide)⟩

/-- The largest precision leaves a display size of one. -/
theorem describeColumn_overflow :
    ∃ column : DeclaredColumn, column.declType = some "DECIMAL(4294967295,2)" ∧
      column.declType.bind sizeOfDecl = some (4294967295, some 2) ∧
      (describeColumn column none).precision = 4294967295 ∧
      (describeColumn column none).displaySize = 1 :=
  ⟨{ name := "x", declType := some "DECIMAL(4294967295,2)" }, by decide +kernel⟩

end SqlUnits
