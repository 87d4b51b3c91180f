import SqlUnits.Proofs.Query.Block
import SqlUnits.Proofs.Text.Offset
import SqlUnits.Proofs.Unit.Literal
/-!
The grammar of source units: what stands between two places of a text, and which declaration it
is. Each reader reaches exactly what the grammar has.
-/

namespace SqlUnits.Scanner

variable {c d : Cursor} {lines : LineIndex}

def TypeAt (c : Cursor) (type : ValueType) (d : Cursor) : Prop :=
  ∃ w, Word c w d ∧ w.name ≠ "meta" ∧ w.name ≠ "_" ∧ type = .ofName w.name

theorem TypeAt.ends {type : ValueType} (at_ : TypeAt c type d) : d.skip = d := by
  obtain ⟨w, word, _⟩ := at_
  exact word.ends

structure ParamAt (lines : LineIndex) (c : Cursor) (p : ParamDecl) (d : Cursor) : Prop where
  parts : ∃ m n, Word c p.name m ∧ Announced ':' TypeAt m p.type n ∧
    Announced '=' SampleAt n p.sample d
  line : p.line = lines.line p.name.span.start
  known : p.type.isSome = true ∨ p.sample.isSome = true

def FieldAt (lines : LineIndex) (c : Cursor) (f : FieldDecl) (d : Cursor) : Prop :=
  ∃ w v m n, Word c w m ∧ Sign ':' m n ∧ Word n v d ∧
    f = ⟨w.name, .ofName v.name, lines.line w.span.start⟩

structure RowAt (lines : LineIndex) (keyword : Ident) (c : Cursor) (r : RowDecl) (d : Cursor) :
    Prop where
  parts : ∃ m, Word c r.name m ∧ Announced '(' (Listed ')' (FieldAt lines)) m r.fields d
  line : r.line = lines.line keyword.span.start
  known : r.fields ≠ some []

theorem RowAt.ends {keyword : Ident} {r : RowDecl} (at_ : RowAt lines keyword c r d) :
    d.skip = d := by
  obtain ⟨⟨m, word, note⟩, _, _⟩ := at_
  exact note.ends (fun _ _ _ listed => listed.ends) word.ends

theorem reaches_checkedValueType {w : Ident} {type : ValueType} :
    Reaches (checkedValueType w) c type d ↔
      (w.name ≠ "meta" ∧ w.name ≠ "_" ∧ type = .ofName w.name) ∧ d = c.skip := by
  unfold checkedValueType
  rw [reaches_ite]
  simp only [not_reaches_failAt, and_false, false_or, reaches_pure, Bool.or_eq_true, beq_iff_eq,
    not_or, and_assoc]

theorem lenient_checkedValueType (w : Ident) : Lenient (checkedValueType w) :=
  .ite (.failAt _ _) (.pure _)

theorem reaches_type (c : Cursor) (type : ValueType) (d : Cursor) :
    Reaches (ident "a type name" >>= checkedValueType) c type d ↔ TypeAt c.skip type d := by
  rw [reaches_bind lenient_checkedValueType]
  simp only [reaches_ident, reaches_checkedValueType, TypeAt]
  constructor
  · rintro ⟨w, m, word, checked, rfl⟩
    exact ⟨w, word.ends.symm ▸ word, checked⟩
  · rintro ⟨w, word, checked⟩
    exact ⟨w, d, word, checked, word.ends.symm⟩

theorem reaches_param (lines : LineIndex) (c : Cursor) (p : ParamDecl) (d : Cursor) :
    Reaches (param lines) c p d ↔ ParamAt lines c.skip p d := by
  unfold param
  have last (name : Ident) (type : Option ValueType) (sample : Option Sample) :
      Lenient (if (type.isNone && sample.isNone) = true then
          failAt name.span.start (.needsType name.name)
        else pure (⟨name, lines.line name.span.start, type, sample⟩ : ParamDecl)) :=
    .ite (.failAt _ _) (.pure _)
  have sampled (name : Ident) (type : Option ValueType) :=
    lenient_announced '=' (fun _ _ _ => reaches_sample) (last name type)
  have typed (name : Ident) := lenient_announced ':' reaches_type (sampled name)
  rw [reaches_bind typed]
  simp only [reaches_ident, reaches_announced reaches_type (sampled _),
    reaches_announced (fun _ _ _ => reaches_sample) (last _ _), reaches_ite, not_reaches_failAt,
    reaches_pure]
  constructor
  · rintro ⟨name, m, word, type, n, note, sample, o, value, ⟨_, fails⟩ | ⟨known, rfl, rfl⟩⟩
    · exact fails.elim
    · rw [word.ends] at note
      have there := note.ends (fun _ _ _ at_ => at_.ends) word.ends
      rw [there] at value
      rw [value.ends (fun _ _ _ at_ => at_.ends) there]
      refine ⟨⟨m, n, word, note, value⟩, rfl, ?_⟩
      cases type <;> cases sample <;> simp at known ⊢
  · rintro ⟨⟨m, n, word, note, value⟩, line, known⟩
    have there := note.ends (fun _ _ _ at_ => at_.ends) word.ends
    refine ⟨p.name, m, word, p.type, n, word.ends.symm ▸ note, p.sample, d,
      there.symm ▸ value, .inr ⟨?_, ?_, (value.ends (fun _ _ _ at_ => at_.ends) there).symm⟩⟩
    · cases type : p.type <;> cases sample : p.sample <;> simp [type, sample] at known ⊢
    · rw [← line]

theorem TypeAt.shorter {type : ValueType} (at_ : TypeAt c type d) :
    d.rest.length < c.rest.length := by
  obtain ⟨w, word, _⟩ := at_
  exact word.shorter

theorem ParamAt.shorter {p : ParamDecl} (at_ : ParamAt lines c p d) :
    d.rest.length < c.rest.length := by
  obtain ⟨⟨m, n, word, note, value⟩, _, _⟩ := at_
  have second := note.shrinks fun _ _ _ at_ => at_.shorter.le
  have third := value.shrinks fun _ _ _ at_ => at_.shorter.le
  exact (third.trans second).trans_lt word.shorter

theorem FieldAt.shorter {f : FieldDecl} (at_ : FieldAt lines c f d) :
    d.rest.length < c.rest.length := by
  obtain ⟨w, v, m, n, name, colon, type, _⟩ := at_
  exact (type.shorter.trans colon.shorter).trans name.shorter

theorem RowAt.shorter {keyword : Ident} {r : RowDecl} (at_ : RowAt lines keyword c r d) :
    d.rest.length < c.rest.length := by
  obtain ⟨⟨m, word, note⟩, _, _⟩ := at_
  have rest := note.shrinks fun _ _ _ listed => listed.shrinks fun _ _ _ at_ => at_.shorter.le
  exact rest.trans_lt word.shorter

theorem reaches_field (lines : LineIndex) (c : Cursor) (f : FieldDecl) (d : Cursor) :
    Reaches (field lines) c f d ↔ FieldAt lines c.skip f d := by
  unfold field
  have typed (name : Ident) := (lenient_ident "a field type").bind fun type =>
    .pure (⟨name.name, FieldType.ofName type.name, lines.line name.span.start⟩ : FieldDecl)
  rw [reaches_bind fun name => (lenient_expect ':').bind fun _ => typed name]
  simp only [reaches_ident, reaches_bind fun _ => typed _, reaches_expect, reaches_bind_pure]
  constructor
  · rintro ⟨name, m, word, _, n, colon, type, there, rfl⟩
    rw [word.ends] at colon
    rw [colon.ends] at there
    exact ⟨name, type, m, n, word, colon, there, rfl⟩
  · rintro ⟨name, type, m, n, word, colon, there, rfl⟩
    exact ⟨name, m, word, ⟨⟩, n, word.ends.symm ▸ colon, type, colon.ends.symm ▸ there, rfl⟩

theorem reaches_fields (lines : LineIndex) (c : Cursor) (fields : List FieldDecl) (d : Cursor) :
    Reaches (list ')' (field lines)) c fields d ↔ Listed ')' (FieldAt lines) c.skip fields d :=
  reaches_list (by decide) (reaches_field lines) fun _ _ _ at_ => at_.shorter.le

theorem reaches_row (lines : LineIndex) (keyword : Ident) (c : Cursor) (r : RowDecl)
    (d : Cursor) : Reaches (row lines keyword) c r d ↔ RowAt lines keyword c.skip r d := by
  unfold row
  have last (name : Ident) (fields : Option (List FieldDecl)) :
      Lenient (if fields = some [] then failAt name.span.start (.noFields name.name)
        else pure (⟨name, lines.line keyword.span.start, fields⟩ : RowDecl)) :=
    .ite (.failAt _ _) (.pure _)
  rw [reaches_bind fun name => lenient_announced '(' (reaches_fields lines) (last name)]
  simp only [reaches_ident, reaches_announced (reaches_fields lines) (last _), reaches_ite,
    not_reaches_failAt, reaches_pure]
  constructor
  · rintro ⟨name, m, word, fields, n, note, ⟨_, fails⟩ | ⟨known, rfl, rfl⟩⟩
    · exact fails.elim
    · rw [word.ends] at note
      rw [note.ends (fun _ _ _ at_ => at_.ends) word.ends]
      exact ⟨⟨m, word, note⟩, rfl, known⟩
  · rintro ⟨⟨m, word, note⟩, line, known⟩
    refine ⟨r.name, m, word, r.fields, d, word.ends.symm ▸ note, .inr ⟨known, ?_, ?_⟩⟩
    · rw [← line]
    · exact (note.ends (fun _ _ _ at_ => at_.ends) word.ends).symm

/-- The text of a statement, in braces; it begins behind the blanks that lead it. -/
def blockText (open_ : Nat) (inside : Text) : SqlText :=
  ⟨String.ofList (Text.trim inside),
    open_ + 1 + (Text.byteLength inside - Text.byteLength (Text.trimStart inside))⟩

def SqlAt (c : Cursor) (s : SqlText) (d : Cursor) : Prop :=
  ∃ inside gap, Stretch c ('\x7b' :: (inside ++ '\x7d' :: gap)) d ∧ Gap gap d.rest ∧
    Query.IsInside inside ∧ Text.trim inside ≠ [] ∧ s = blockText c.offset inside

/-- One text is not cut into a block and what follows it in two ways. -/
theorem IsInside.unique {inside other after after' : Text} (isInside : Query.IsInside inside)
    (otherInside : Query.IsInside other)
    (same : inside ++ '\x7d' :: after = other ++ '\x7d' :: after') : other = inside := by
  have first := isInside 0 after
  rw [same, otherInside] at first
  have length : Text.byteLength other = Text.byteLength inside := by
    simp only [Except.ok.injEq] at first
    omega
  exact (Text.append_inj_of_byteLength same.symm length).1

theorem sqlBlock_of_error {offset : Nat} {more : Text} {fault : Query.QueryError}
    (brace : c.skip = ⟨offset, '\x7b' :: more⟩)
    (open_ : Query.blockEnd offset ('\x7b' :: more) = .error fault) :
    sqlBlock c = .error ⟨fault.offset, .block fault⟩ := by
  have ahead : ¬c.skip.rest.head? ≠ some '\x7b' := by simp [brace]
  unfold sqlBlock
  change (ite (c.skip.rest.head? ≠ some '\x7b') _ _ : Scan SqlText) c.skip = _
  rw [if_neg ahead, brace, bind_get]
  dsimp only
  rw [open_]
  rfl

theorem sqlBlock_of_inside {offset : Nat} {inside after : Text}
    (brace : c.skip = ⟨offset, '\x7b' :: (inside ++ '\x7d' :: after)⟩)
    (isInside : Query.IsInside inside) :
    sqlBlock c =
      if Text.trim inside = [] then .error ⟨offset, .noSql⟩
      else .ok (blockText offset inside, ⟨offset + 1 + Text.byteLength inside + 1, after⟩) := by
  have ahead : ¬c.skip.rest.head? ≠ some '\x7b' := by simp [brace]
  have cut : offset + 1 + Text.byteLength inside - offset - 1 = Text.byteLength inside := by omega
  unfold sqlBlock
  change (ite (c.skip.rest.head? ≠ some '\x7b') _ _ : Scan SqlText) c.skip = _
  rw [if_neg ahead, brace, bind_get]
  dsimp only
  rw [isInside]
  dsimp only
  rw [cut, List.drop_one, List.tail_cons, Text.splitAtByte?_append]
  dsimp only
  rw [bind_set]
  simp only [List.isEmpty_iff]
  split <;> rfl

theorem sqlBlock_of_unbraced (ahead : c.skip.rest.head? ≠ some '\x7b') :
    sqlBlock c = unexpected "\x60\x7b\x60" c.skip := by
  unfold sqlBlock
  change (ite (c.skip.rest.head? ≠ some '\x7b') _ _ : Scan SqlText) c.skip = _
  rw [if_pos ahead]

theorem sqlBlock_eq_ok {s : SqlText} {e : Cursor} :
    sqlBlock c = .ok (s, e) ↔
      ∃ inside, Stretch c.skip ('\x7b' :: (inside ++ ['\x7d'])) e ∧ Query.IsInside inside ∧
        Text.trim inside ≠ [] ∧ s = blockText c.skip.offset inside := by
  by_cases ahead : c.skip.rest.head? = some '\x7b'
  · obtain ⟨offset, more, brace⟩ := Cursor.exists_cons ahead
    cases ends : Query.blockEnd offset ('\x7b' :: more) with
    | error fault =>
        rw [sqlBlock_of_error brace ends, brace]
        refine iff_of_false nofun ?_
        rintro ⟨inside, stretch, isInside, _⟩
        have same : more = inside ++ '\x7d' :: e.rest := by
          simpa using (List.cons.inj stretch.rest).2
        rw [same, isInside] at ends
        cases ends
    | ok close =>
        obtain ⟨inside, after, rfl, isInside, rfl⟩ := Query.blockEnd_eq_ok.1 ends
        rw [sqlBlock_of_inside brace isInside, brace]
        let stop : Cursor := ⟨offset + 1 + Text.byteLength inside + 1, after⟩
        have here : Stretch ⟨offset, '\x7b' :: (inside ++ '\x7d' :: after)⟩
            ('\x7b' :: (inside ++ ['\x7d'])) stop := by
          refine ⟨by simp [stop], ?_⟩
          simp only [stop, Text.byteLength_cons, Text.byteLength_append, Text.byteLength_nil]
          have one : '\x7b'.utf8Size = 1 ∧ '\x7d'.utf8Size = 1 := by decide
          omega
        constructor
        · intro read
          by_cases empty : Text.trim inside = []
          · rw [if_pos empty] at read
            cases read
          · rw [if_neg empty] at read
            obtain ⟨text, there⟩ := Prod.mk.inj (Except.ok.inj read)
            exact ⟨inside, there ▸ here, isInside, empty, text.symm⟩
        · rintro ⟨other, stretch, otherInside, full, rfl⟩
          have same : inside ++ '\x7d' :: after = other ++ '\x7d' :: e.rest := by
            simpa using (List.cons.inj stretch.rest).2
          obtain rfl := IsInside.unique isInside otherInside same
          rw [if_neg full, ← here.unique stretch]
  · rw [sqlBlock_of_unbraced ahead]
    refine iff_of_false nofun ?_
    rintro ⟨inside, stretch, _⟩
    exact ahead (congrArg List.head? stretch.rest)

theorem lenient_sqlBlock : Lenient sqlBlock := by
  intro c a d
  unfold Reaches
  simp only [sqlBlock_eq_ok, c.skip_skip]

theorem reaches_sqlBlock {s : SqlText} : Reaches sqlBlock c s d ↔ SqlAt c.skip s d := by
  constructor
  · rintro ⟨e, read, rfl⟩
    obtain ⟨inside, stretch, isInside, full, text⟩ := sqlBlock_eq_ok.1 read
    obtain ⟨gap, trivia, gaps⟩ := e.skip_gap
    have whole := stretch.trans trivia
    rw [List.cons_append, List.append_assoc] at whole
    exact ⟨inside, gap, whole, gaps, isInside, full, text⟩
  · rintro ⟨inside, gap, whole, gaps, isInside, full, text⟩
    obtain ⟨first, second⟩ :=
      Stretch.split (t := '\x7b' :: (inside ++ ['\x7d'])) (u := gap) (by simpa using whole)
    exact ⟨_, sqlBlock_eq_ok.2 ⟨inside, first, isInside, full, text⟩, gaps.skip_eq second⟩

theorem SqlAt.ends {s : SqlText} (at_ : SqlAt c s d) : d.skip = d := by
  obtain ⟨_, _, _, gaps, _⟩ := at_
  exact Cursor.skip_of_settled gaps.settled

theorem SqlAt.shorter {s : SqlText} (at_ : SqlAt c s d) : d.rest.length < c.rest.length := by
  obtain ⟨inside, gap, stretch, _⟩ := at_
  have whole := stretch.length
  simp only [List.length_cons, List.length_append] at whole
  omega

/-- The text of a block, cut where its statement begins. -/
theorem blockText_cut {inside gap : Text}
    (stretch : Stretch c ('\x7b' :: (inside ++ '\x7d' :: gap)) d) :
    ∃ lead e, Stretch c ('\x7b' :: lead) e ∧ (blockText c.offset inside).offset = e.offset ∧
      lead = inside.takeWhile Text.isBlank := by
  have whole := List.takeWhile_append_dropWhile (p := Text.isBlank) (l := inside)
  have offset : (blockText c.offset inside).offset =
      c.offset + Text.byteLength ('\x7b' :: inside.takeWhile Text.isBlank) := by
    have size : '\x7b'.utf8Size = 1 := by decide
    have bytes := congrArg Text.byteLength whole
    rw [Text.byteLength_append] at bytes
    simp only [blockText, Text.trimStart, Text.byteLength_cons, size]
    omega
  obtain ⟨first, _⟩ := Stretch.split (t := '\x7b' :: inside.takeWhile Text.isBlank)
    (u := inside.dropWhile Text.isBlank ++ '\x7d' :: gap) (e := d) (c := c)
    (by rwa [List.cons_append, ← List.append_assoc, whole])
  exact ⟨_, _, first, offset, rfl⟩

inductive TargetAt (convention : Convention) (c : Cursor) : Target → Cursor → Prop
  | row {w : Ident} {d : Cursor} : convention.isRow = true → Word c w d →
      TargetAt convention c (.row w) d
  | discovered {w : Ident} {d : Cursor} : convention.isSingleColumn = true → Word c w d →
      w.name = "_" → TargetAt convention c (.value none w.span) d
  | value {w : Ident} {d : Cursor} : convention.isSingleColumn = true → Word c w d →
      w.name ≠ "_" → w.name ≠ "meta" →
      TargetAt convention c (.value (some (.ofName w.name)) w.span) d
  | none : convention.isRow = false → convention.isSingleColumn = false →
      TargetAt convention c .none c

theorem reaches_target {convention : Convention} {t : Target} :
    Reaches (target convention) c t d ↔ TargetAt convention c.skip t d := by
  unfold target
  have checked (type : Ident) := (lenient_checkedValueType type).bind fun t =>
    .pure (Target.value (some t) type.span)
  rw [reaches_ite, reaches_ite, reaches_bind_pure,
    reaches_bind fun type => .ite (.pure _) (checked type)]
  simp only [reaches_ident, reaches_ite, reaches_bind_pure, reaches_checkedValueType,
    reaches_pure, beq_iff_eq, Bool.not_eq_true]
  constructor
  · rintro (⟨rows, w, word, rfl⟩ | ⟨noRows, ⟨single, w, m, word, rest⟩ | ⟨none, rfl, rfl⟩⟩)
    · exact .row rows word
    · rcases rest with ⟨hole, rfl, rfl⟩ | ⟨noHole, type, ⟨⟨noMeta, _, rfl⟩, rfl⟩, rfl⟩
      · rw [word.ends]
        exact .discovered single word hole
      · rw [word.ends]
        exact .value single word noHole noMeta
    · exact .none noRows none
  · intro at_
    have apart : convention.isSingleColumn = true → convention.isRow = false := by
      cases convention <;> simp [Convention.isSingleColumn, Convention.isRow]
    cases at_ with
    | row rows word => exact .inl ⟨rows, _, word, rfl⟩
    | discovered single word hole =>
        exact .inr ⟨apart single, .inl ⟨single, _, d, word, .inl ⟨hole, rfl, word.ends.symm⟩⟩⟩
    | value single word noHole noMeta =>
        refine .inr ⟨apart single, .inl ⟨single, _, d, word, .inr ⟨noHole, _, ?_, rfl⟩⟩⟩
        exact ⟨⟨noMeta, noHole, rfl⟩, word.ends.symm⟩
    | none noRows none => exact .inr ⟨noRows, .inr ⟨none, rfl, rfl⟩⟩

end SqlUnits.Scanner
