import Mathlib.Data.List.Basic
import SqlUnits.Proofs.Unit.Scan
import SqlUnits.Proofs.Unit.Splicing
/-!
A unit is read again after its open types are filled in: it is the same unit with these types,
each part on its line.
-/

namespace SqlUnits.Scanner

variable {lines lines' : LineIndex} {c d m c' d' : Cursor}

theorem Quote.becomes {s : String} (quote : Quote c s d) :
    Becomes lines c d [] fun _ c' d' => Quote c' s d' := by
  have settled := settled_of_head quote.head ⟨by decide, by decide⟩
  obtain ⟨t, stretch, token⟩ := quote
  refine (Becomes.same stretch settled).imp fun lines' c' d' _ _ ⟨stretch', follows⟩ => ?_
  exact ⟨t, stretch', token.before follows⟩

/-- A word that stays the word that it is. -/
theorem Word.becomes_named {w : Ident} {name : String} (word : Word c w d) (named : w.name = name) :
    Becomes lines c d [] fun _ c' d' => ∃ w', Word c' w' d' ∧ w'.name = name := by
  refine word.becomes.imp fun lines' c' d' _ _ ⟨w', word', same⟩ => ⟨w', word', ?_⟩
  exact (congrArg Ident.name same).trans named

theorem SampleAt.becomes {s : Sample} (at_ : SampleAt c s d) :
    Becomes lines c d [] fun _ c' d' => SampleAt c' s d' := by
  cases at_ with
  | text quote =>
      exact quote.becomes.imp fun _ _ _ _ _ quote' => .text quote'
  | @number x tail gap _ _ stretch gaps starts run value =>
      have ahead : c.rest.head? = some x := by
        rw [stretch.rest]
        rfl
      refine (Becomes.same stretch (settled_of_head ahead (solid_of_isNumberStart starts))).imp ?_
      rintro lines' c' d' _ _ ⟨stretch', follows⟩
      have head : (gap ++ d'.rest).head? = (gap ++ d.rest).head? := by
        simp [follows.head]
      exact .number stretch' (gaps.before follows.settled follows.nil.1) starts
        (numberRun_before head tail x run) value
  | word word plain =>
      refine (word.becomes_named rfl).imp fun _ _ _ _ _ ⟨w', word', named⟩ => ?_
      exact .word word' (named ▸ plain)
  | date word named quote =>
      refine ((word.becomes_named named).seq quote.becomes).imp ?_
      rintro _ _ _ _ _ ⟨_, ⟨_, word', named'⟩, quote'⟩
      exact .date word' named' quote'
  | timestamp word named quote =>
      refine ((word.becomes_named named).seq quote.becomes).imp ?_
      rintro _ _ _ _ _ ⟨_, ⟨_, word', named'⟩, quote'⟩
      exact .timestamp word' named' quote'
  | @hex x _ _ m _ letter stretch quote value =>
      have ahead : c.rest.head? = some x := by
        rw [stretch.rest]
        rfl
      have solid : Solid x := by
        rcases letter with rfl | rfl <;> exact ⟨by decide, by decide⟩
      refine ((Becomes.same stretch (settled_of_head ahead solid)).seq quote.becomes).imp ?_
      rintro _ _ _ _ _ ⟨_, ⟨stretch', _⟩, quote'⟩
      exact .hex letter stretch' quote' value

theorem TypeAt.becomes {type : ValueType} (at_ : TypeAt c type d) :
    Becomes lines c d [] fun _ c' d' => TypeAt c' type d' := by
  obtain ⟨w, word, notMeta, notHole, rfl⟩ := at_
  refine (word.becomes_named rfl).imp fun _ _ _ _ _ ⟨w', word', named⟩ => ?_
  exact ⟨w', word', named ▸ notMeta, named ▸ notHole, by rw [named]⟩

theorem FieldAt.becomes {f : FieldDecl} (at_ : FieldAt lines c f d) :
    Becomes lines c d [] fun lines' c' d' => FieldAt lines' c' f d' := by
  obtain ⟨w, v, m, n, name, colon, type, rfl⟩ := at_
  refine (name.becomes.seq ((colon.becomes ⟨by decide, by decide⟩).seq
    (type.becomes_named rfl))).imp ?_
  rintro _ _ _ _ _ ⟨_, ⟨w', name', same⟩, _, colon', v', type', named⟩
  refine ⟨w', v', _, _, name', colon', type', ?_⟩
  have line := congrArg (·.span.start) same
  have word := congrArg Ident.name same
  simp only [Ident.onLines, Span.point] at line word
  rw [word, line, named]

theorem gap_space {rest : Text} (settled : Settled rest) : Gap [' '] rest :=
  ⟨settled, fun o => skipTrivia_of_settled settled (o + 1)⟩

theorem IsName.settled {chars : Text} (name : IsName chars) (rest : Text) :
    Settled (chars ++ rest) := by
  cases chars with
  | nil => exact absurd rfl name.nonempty
  | cons x chars => exact settled_of_head rfl (solid_of_isIdentChar (name.all x (.head _)))

/-- A type that is written behind a colon. -/
theorem typed_of_stretch {type gap : Text} (stretch : Stretch c (':' :: ' ' :: (type ++ gap)) d)
    (name : IsName type) (gaps : Gap gap d.rest)
    (stops : (gap ++ d.rest).head?.any Text.isIdentChar = false) :
    ∃ m v, Sign ':' c m ∧ Word m v d ∧ v.name = String.ofList type := by
  obtain ⟨first, second⟩ := Stretch.split (t := [':', ' ']) (u := type ++ gap) stretch
  refine ⟨_, _, sign_iff.2 ⟨[' '], first, gap_space ?_⟩, word_of_stretch second name gaps stops,
    rfl⟩
  rw [List.append_assoc]
  exact name.settled _

/-- A word, and what is inserted right behind it. -/
theorem Word.followed (lines : LineIndex) {w : Ident} (word : Word c w d) (new : Text) {x : Char}
    (ahead : new.head? = some x) (solid : Solid x) (ends : Text.isIdentChar x = false)
    (noNewline : Text.newlines new = 0) :
    Becomes lines c d [.insertion w.span.stop (String.ofList new)] fun lines' c' d' =>
      ∃ w' m' gap, Word c' w' m' ∧ w'.onLines lines' = w.onLines lines ∧
        SameLine lines c lines' m' ∧ Stretch m' (new ++ gap) d' ∧ Gap gap d'.rest ∧
          (gap ++ d'.rest).head?.any Text.isIdentChar = false := by
  obtain ⟨name, span, t, stretch, token⟩ := word
  obtain ⟨gap, rfl, _⟩ := id token
  have letter : ∃ y, w.name.toList.head? = some y ∧ Text.isIdentChar y = true := by
    cases chars : w.name.toList with
    | nil => exact absurd chars name.nonempty
    | cons y more => exact ⟨y, rfl, name.all y (by simp [chars])⟩
  obtain ⟨y, first, letter⟩ := letter
  have becomes := Becomes.replaced lines [] new stretch first letter noNewline
  rw [span]
  refine becomes.imp ?_
  rintro lines' c' d' level _ ⟨stretch', follows⟩
  obtain ⟨left, right⟩ := stretch'.split
  obtain ⟨gap', same, gaps, stops⟩ := token.before follows
  obtain rfl := List.append_cancel_left same
  have head : (new ++ gap ++ d'.rest).head? = some x := by simp [ahead]
  refine ⟨_, _, gap, word_of_tight left name (settled_of_head head solid)
    (by rwa [head]), ?_, ?_, right, gaps, stops⟩
  · simp only [Ident.onLines, String.ofList_toList, level.line_eq, span]
  · refine level.along (.refl c) left (Text.newlines_eq_zero fun z member => ?_)
    rintro rfl
    exact absurd (name.all _ member) (by decide)

theorem newlines_of_isName {chars : Text} (name : IsName chars) : Text.newlines chars = 0 := by
  refine Text.newlines_eq_zero fun x member => ?_
  rintro rfl
  exact absurd (name.all _ member) (by decide)

theorem ParamAt.becomes {p : ParamDecl} (at_ : ParamAt lines c p d) (f : Filling) :
    Becomes lines c d (p.edit? f).toList fun lines' c' d' =>
      ∃ p', ParamAt lines' c' p' d' ∧ p'.onLines lines' = (p.fill f).onLines lines := by
  obtain ⟨⟨m, n, word, note, value⟩, line, known⟩ := at_
  have there := note.ends (fun _ _ _ at_ => at_.ends) word.ends
  have settled : Settled n.rest := there ▸ n.settled_skip
  have value := value.becomes lines (fun _ => SampleAt) (fun _ s => s)
    ⟨by decide, by decide⟩ settled fun _ s _ at_ =>
      at_.becomes.imp fun _ _ _ _ _ at' => ⟨s, at', rfl⟩
  have made (t : ValueType) (types : p.type.getD (f.param p) = t) {c' d' m' n' : Cursor}
      {lines' : LineIndex} {w' : Ident} {sample' : Option Sample} (word' : Word c' w' m')
      (same : w'.onLines lines' = p.name.onLines lines)
      (note' : Announced ':' TypeAt m' (some t) n')
      (value' : Announced '=' SampleAt n' sample' d') (samples : sample' = p.sample) :
      ∃ p', ParamAt lines' c' p' d' ∧ p'.onLines lines' = (p.fill f).onLines lines := by
    refine ⟨⟨w', lines'.line w'.span.start, some t, sample'⟩, ⟨⟨m', n', word', note', value'⟩, rfl,
      .inl rfl⟩, ?_⟩
    obtain ⟨_, lineSame⟩ := Ident.onLines_eq same
    simp only [ParamDecl.onLines, ParamDecl.fill, same, lineSame, line, types, samples]
  cases type : p.type with
  | some t =>
      have note := note.becomes lines (fun _ => TypeAt) (fun _ s => s)
        ⟨by decide, by decide⟩ (word.ends ▸ m.settled_skip) fun _ t _ at_ =>
          at_.becomes.imp fun _ _ _ _ _ at' => ⟨t, at', rfl⟩
      have becomes := word.becomes.seq (note.seq value)
      have none : p.edit? f = none := by simp [ParamDecl.edit?, type]
      rw [none]
      refine becomes.imp ?_
      rintro _ _ _ _ _ ⟨_, ⟨_, word', same⟩, _, ⟨_, note', types⟩, _, value', samples⟩
      rw [Option.map_id', Option.map_id', type] at types
      rw [Option.map_id', Option.map_id'] at samples
      rw [types] at note'
      exact made t (by simp [type]) word' same note' value' samples
  | none =>
      rw [type] at note
      obtain ⟨_, _, _, _, absurd_⟩ | ⟨_, _, rfl⟩ := note
      · cases absurd_
      · have written := ValueType.isWritten _ (f.param_builtin p)
        have chars : (": " ++ (f.param p).name).toList = ':' :: ' ' :: (f.param p).name.toList :=
          String.toList_append
        have becomes := (word.followed lines (": " ++ (f.param p).name).toList
          (show _ = some ':' by simp [chars]) ⟨by decide, by decide⟩ (by decide) ?_).seq value
        · rw [List.append_nil, String.ofList_toList] at becomes
          have edit : (p.edit? f).toList =
              [.insertion p.name.span.stop (": " ++ (f.param p).name)] := by
            simp [ParamDecl.edit?, type, ParamDecl.insertionPoint]
          rw [edit]
          refine becomes.imp ?_
          rintro _ _ _ _ _ ⟨_, ⟨w', m', gap, word', same, _, stretch', gaps, stops⟩, _, value',
            samples⟩
          rw [Option.map_id', Option.map_id'] at samples
          rw [chars] at stretch'
          obtain ⟨n', v, colon, word'', named⟩ := typed_of_stretch stretch' written.name gaps stops
          rw [String.ofList_toList] at named
          have note' : Announced ':' TypeAt m' (some (f.param p)) _ :=
            .inl ⟨n', f.param p, colon, ⟨v, word'', named ▸ written.notMeta,
              named ▸ written.notHole, named ▸ written.known.symm⟩, rfl⟩
          exact made (f.param p) (by simp [type]) word' same note' value' samples
        · rw [chars, Text.newlines_cons (by decide), Text.newlines_cons (by decide)]
          exact newlines_of_isName written.name

/-- A field as a field list has it. -/
def fieldText (field : TypedField) : Text :=
  field.name.toList ++ (':' :: ' ' :: field.type.name.toList)

theorem newlines_fieldText {field : TypedField} (written : field.IsWritten) :
    Text.newlines (fieldText field) = 0 := by
  unfold fieldText
  rw [Text.newlines_append, newlines_of_isName written.name, Text.newlines_cons (by decide),
    Text.newlines_cons (by decide), newlines_of_isName written.type]

theorem field_of_stretch {field : TypedField} (written : field.IsWritten)
    (stretch : Stretch c (fieldText field) d) (settled : Settled d.rest)
    (stops : d.rest.head?.any Text.isIdentChar = false) :
    FieldAt lines c ⟨field.name, field.type, lines.line c.offset⟩ d := by
  obtain ⟨first, second⟩ := stretch.split
  obtain ⟨n, v, colon, type, named⟩ := typed_of_stretch
    (show Stretch _ (':' :: ' ' :: (field.type.name.toList ++ [])) d by rwa [List.append_nil])
    written.type (.nil settled) (by simpa using stops)
  have word := word_of_tight first written.name (settled_of_head rfl ⟨by decide, by decide⟩)
    (by decide : Text.isIdentChar ':' = false)
  refine ⟨_, v, _, n, word, colon, type, ?_⟩
  rw [named, String.ofList_toList, String.ofList_toList, written.known]

/-- A field list begins with the name of a field. -/
theorem opened_head {fields : List TypedField} (some : fields ≠ [])
    (written : ∀ field ∈ fields, field.IsWritten) (rest : Text) :
    ∃ x, ([',', ' '].intercalate (fields.map fieldText) ++ rest).head? = Option.some x ∧
      Text.isIdentChar x = true := by
  cases fields with
  | nil => exact absurd rfl some
  | cons field others =>
      have name := (written field (.head others)).name
      obtain ⟨x, chars, whole⟩ := List.exists_cons_of_ne_nil name.nonempty
      refine ⟨x, ?_, name.all x (by simp [whole])⟩
      cases others <;> simp [fieldText, whole, List.intercalate_cons_cons]

/-- The fields of a list, behind its bracket; they all stand on one line. -/
theorem items_of_stretch {fields : List TypedField} (some : fields ≠ [])
    (written : ∀ field ∈ fields, field.IsWritten) {gap : Text}
    (stretch : Stretch c ([',', ' '].intercalate (fields.map fieldText) ++ (')' :: gap)) d)
    (gaps : Gap gap d.rest) (level : SameLine lines m lines' c) :
    Items ')' (FieldAt lines') c
      (fields.map fun field => ⟨field.name, field.type, lines.line m.offset⟩) d := by
  induction fields generalizing c with
  | nil => exact absurd rfl some
  | cons field rest ih =>
      have isWritten := written field (.head rest)
      have one {n : Cursor} (first : Stretch c (fieldText field) n) (settled : Settled n.rest)
          (stops : n.rest.head?.any Text.isIdentChar = false) :
          FieldAt lines' c ⟨field.name, field.type, lines.line m.offset⟩ n := by
        rw [← level.line_eq]
        exact field_of_stretch isWritten first settled stops
      cases rest with
      | nil =>
          rw [List.map_singleton, List.intercalate_singleton] at stretch
          obtain ⟨first, second⟩ := stretch.split
          refine .last (one first ?_ (by decide : Text.isIdentChar ')' = false))
            (sign_iff.2 ⟨gap, second, gaps⟩)
          exact settled_of_head rfl ⟨by decide, by decide⟩
      | cons next rest =>
          rw [List.map_cons, List.map_cons, List.intercalate_cons_cons, List.append_assoc,
            List.append_assoc] at stretch
          obtain ⟨first, later⟩ := stretch.split
          obtain ⟨comma, others⟩ := later.split
          obtain ⟨x, ahead, letter⟩ := opened_head (by simp : next :: rest ≠ [])
            (fun x member => written x (.tail field member)) (')' :: gap ++ d.rest)
          have start := settled_of_head ahead (solid_of_isIdentChar letter)
          rw [← List.append_assoc] at start
          have level := level.along (.refl m) first (newlines_fieldText isWritten)
          have level := level.along (.refl m) comma (by decide)
          refine .more (one first (settled_of_head rfl ⟨by decide, by decide⟩)
              (by decide : Text.isIdentChar ',' = false))
            (sign_iff.2 ⟨[' '], comma, gap_space start⟩)
            (ih (by simp) (fun x member => written x (.tail field member)) others level)

theorem renderFields_toList (fields : List TypedField) :
    (renderFields fields).toList =
      '(' :: ([',', ' '].intercalate (fields.map fieldText) ++ [')']) := by
  have texts : (fields.map fun f => f.name ++ ": " ++ f.type.name).map String.toList =
      fields.map fieldText := by
    rw [List.map_map]
    refine List.map_congr_left fun field _ => ?_
    simp [fieldText]
  simp only [renderFields, String.toList_append, String.toList_intercalate, texts]
  rfl

theorem newlines_renderFields {fields : List TypedField}
    (written : ∀ field ∈ fields, field.IsWritten) :
    Text.newlines (renderFields fields).toList = 0 := by
  rw [renderFields_toList, Text.newlines_cons (by decide), Text.newlines_append]
  have inside : Text.newlines ([',', ' '].intercalate (fields.map fieldText)) = 0 := by
    induction fields with
    | nil => rfl
    | cons field rest ih =>
        have first := newlines_fieldText (written field (.head rest))
        have others := ih fun x member => written x (.tail field member)
        cases rest with
        | nil => simpa using first
        | cons next rest =>
            rw [List.map_cons, List.map_cons, List.intercalate_cons_cons, Text.newlines_append,
              Text.newlines_append, first]
            rw [List.map_cons] at others
            rw [others]
            rfl
  rw [inside]
  rfl

theorem RowAt.becomes {keyword : Ident} {r : RowDecl} (at_ : RowAt lines keyword c r d)
    (f : Filling) :
    Becomes lines c d (r.edit? f).toList fun lines' c' d' =>
      ∀ keyword' : Ident, lines'.line keyword'.span.start = lines.line keyword.span.start →
        ∃ r', RowAt lines' keyword' c' r' d' ∧
          r'.onLines lines' = (r.fill f lines).onLines lines := by
  obtain ⟨⟨m, word, note⟩, line, known⟩ := at_
  have made (fields : Option (List FieldDecl)) (filled : (r.fill f lines).fields = fields)
      (some : fields ≠ some []) {c' d' m' : Cursor} {lines' : LineIndex} {w' : Ident}
      (word' : Word c' w' m') (same : w'.onLines lines' = r.name.onLines lines)
      (note' : Announced '(' (Listed ')' (FieldAt lines')) m' fields d') (keyword' : Ident)
      (level : lines'.line keyword'.span.start = lines.line keyword.span.start) :
      ∃ r', RowAt lines' keyword' c' r' d' ∧
        r'.onLines lines' = (r.fill f lines).onLines lines := by
    refine ⟨⟨w', lines'.line keyword'.span.start, fields⟩, ⟨⟨m', word', note'⟩, rfl, some⟩, ?_⟩
    simp only [RowDecl.onLines, RowDecl.fill_name, RowDecl.fill_line, filled, same, level, line]
  have untouched (none : r.edit? f = none) (filled : (r.fill f lines).fields = r.fields) :
      Becomes lines c d (r.edit? f).toList fun lines' c' d' =>
        ∀ keyword' : Ident, lines'.line keyword'.span.start = lines.line keyword.span.start →
          ∃ r', RowAt lines' keyword' c' r' d' ∧
            r'.onLines lines' = (r.fill f lines).onLines lines := by
    have note := note.becomes lines (fun lines' => Listed ')' (FieldAt lines'))
      (fun _ fields => fields.map id)
      ⟨by decide, by decide⟩ (word.ends ▸ m.settled_skip) fun c fields d listed =>
        listed.kept lines FieldAt (fun _ => id) ⟨by decide, by decide⟩
          fun _ field _ at_ => at_.becomes.imp fun _ _ _ _ _ at' => ⟨field, at', rfl⟩
    rw [none]
    refine (word.becomes.seq note).imp ?_
    rintro lines' c' d' _ _ ⟨m', ⟨w', word', same⟩, fields', note', sameFields⟩
    simp only [List.map_id, Option.map_id_fun', id] at sameFields
    rw [sameFields] at note'
    exact made r.fields filled known word' same note'
  cases fields : r.fields with
  | some list =>
      exact untouched (by simp [RowDecl.edit?, fields]) (by simp [RowDecl.fill, fields])
  | none =>
      cases discovered : f.fields r with
      | none =>
          refine untouched (by simp [RowDecl.edit?, fields, discovered]) ?_
          simp [RowDecl.fill, fields, discovered]
      | some list =>
          obtain ⟨some, written⟩ := f.fields_isWritten r list discovered
          rw [fields] at note
          obtain ⟨_, _, _, _, absurd_⟩ | ⟨_, _, rfl⟩ := note
          · cases absurd_
          · have chars := renderFields_toList list
            have becomes := word.followed lines (renderFields list).toList
              (show _ = Option.some '(' by rw [chars]; rfl) ⟨by decide, by decide⟩
              (by decide) (newlines_renderFields written)
            rw [String.ofList_toList] at becomes
            have edit : (r.edit? f).toList = [.insertion r.name.span.stop (renderFields list)] := by
              simp [RowDecl.edit?, fields, discovered, RowDecl.insertionPoint]
            rw [edit]
            refine becomes.imp ?_
            rintro lines' c' d' _ _ ⟨w', m', gap, word', same, level, stretch, gaps, _⟩
            rw [chars, List.cons_append, List.append_assoc] at stretch
            obtain ⟨opens, inside⟩ := Stretch.split (t := ['('])
              (u := [',', ' '].intercalate (list.map fieldText) ++ (')' :: gap)) stretch
            have line : lines.line r.name.span.start = lines.line c.offset := by
              obtain ⟨_, span, _⟩ := word
              rw [span]
            obtain ⟨x, ahead, letter⟩ := opened_head some written (')' :: gap ++ d'.rest)
            have items := items_of_stretch some written inside gaps
              (level.along (.refl c) opens (by decide))
            rw [← line] at items
            refine made _ (by simp [RowDecl.fill, fields, discovered]) ?_ word' same
              (.inl ⟨_, _, sign_iff.2 ⟨[], opens, .nil ?_⟩, .inr ⟨?_, items⟩, rfl⟩)
            · simpa using some
            · exact settled_of_head (by simpa using ahead) (solid_of_isIdentChar letter)
            · rw [inside.rest, List.append_assoc, ahead]
              rintro same
              cases same
              exact absurd letter (by decide)

theorem SqlAt.becomes {s : SqlText} (at_ : SqlAt c s d) :
    Becomes lines c d [] fun lines' c' d' =>
      ∃ s', SqlAt c' s' d' ∧ s'.onLines lines' = s.onLines lines := by
  obtain ⟨inside, gap, stretch, gaps, isInside, some, rfl⟩ := at_
  have ahead : c.rest.head? = Option.some '\x7b' := by
    rw [stretch.rest]
    rfl
  refine (Becomes.same stretch (settled_of_head ahead ⟨by decide, by decide⟩)).imp ?_
  rintro lines' c' d' level _ ⟨stretch', follows⟩
  refine ⟨blockText c'.offset inside, ⟨inside, gap, stretch',
    gaps.before follows.settled follows.nil.1, isInside, some, rfl⟩, ?_⟩
  obtain ⟨_, e, first, offset, rfl⟩ := blockText_cut stretch
  obtain ⟨_, e', first', offset', rfl⟩ := blockText_cut stretch'
  simp only [SqlText.onLines, offset, offset', (level.along first first' rfl).line_eq]
  rfl

/-- A keyword and the mark of a value behind it, which gives way to a type. -/
theorem discovered_becomes {keyword w : Ident} (word : Word c keyword m) (hole : Word m w d)
    (named : w.name = "_") {type : ValueType} (written : type.IsWritten) :
    Becomes lines c d [⟨w.span, type.name⟩] fun lines' c' d' =>
      ∃ keyword' m' w', Word c' keyword' m' ∧ keyword'.onLines lines' = keyword.onLines lines ∧
        Word m' w' d' ∧ w'.name = type.name ∧
          lines'.line w'.span.start = lines.line w.span.start := by
  obtain ⟨y, within, letter, _⟩ := word.head
  obtain ⟨x, ahead, hole', _⟩ := hole.head
  obtain ⟨name, span, t, stretch, token⟩ := word
  obtain ⟨_, span', u, stretchU, tokenU⟩ := hole
  obtain ⟨gap, rfl, _⟩ := id token
  obtain ⟨gapU, rfl, _⟩ := id tokenU
  rw [named] at stretchU tokenU span'
  have first : (keyword.name.toList ++ gap).head? = some y := by
    obtain ⟨z, more, chars⟩ := List.exists_cons_of_ne_nil name.nonempty
    rw [stretch.rest] at within
    simpa [chars] using within
  have becomes := Becomes.replaced lines "_".toList type.name.toList
    (stretch.trans stretchU) first letter ?_
  · rw [String.ofList_toList, ← stretch.offset, ← span'] at becomes
    refine becomes.imp ?_
    rintro lines' c' d' level _ ⟨stretch', follows⟩
    obtain ⟨left, right⟩ := stretch'.split
    obtain ⟨gap', same, gaps, stops⟩ := tokenU.before follows
    obtain rfl := List.append_cancel_left same
    have later := word_of_stretch right written.name gaps stops
    have spaced := token.before_spaced (by rw [ahead]; exact hole') later.settled
    refine ⟨⟨keyword.name, ⟨c'.offset, c'.offset + Text.byteLength keyword.name.toList⟩⟩, _, _,
      ⟨name, rfl, _, left, spaced⟩, ?_, later, String.ofList_toList, ?_⟩
    · simp only [Ident.onLines, level.line_eq, span]
    · rw [span']
      exact (level.along stretch left rfl).line_eq
  · rw [newlines_of_isName written.name]
    decide

theorem TargetAt.becomes {convention : Convention} {keyword : Ident} {t : Target}
    (at_ : TargetAt convention m t d) (word : Word c keyword m) (f : Filling) :
    Becomes lines c d (t.edit? f).toList fun lines' c' d' =>
      ∃ keyword' m' t', Word c' keyword' m' ∧ keyword'.onLines lines' = keyword.onLines lines ∧
        TargetAt convention m' t' d' ∧ t'.onLines lines' = (t.fill f).onLines lines := by
  cases at_ with
  | row rows name =>
      refine (word.becomes.seq name.becomes).imp ?_
      rintro _ _ _ _ _ ⟨m', ⟨keyword', word', same⟩, w', name', sameName⟩
      exact ⟨keyword', m', .row w', word', same, .row rows name',
        congrArg Target.row sameName⟩
  | @discovered w _ single hole named =>
      have written := ValueType.isWritten _ (f.value_builtin w.span)
      refine (discovered_becomes word hole named written).imp ?_
      rintro _ _ _ _ _ ⟨keyword', m', w', word', same, type', named', line⟩
      refine ⟨keyword', m', _, word', same, .value single type' (named' ▸ written.notHole)
        (named' ▸ written.notMeta), ?_⟩
      simp only [Target.onLines, Target.fill, named', written.known, line]
  | value single type notHole notMeta =>
      refine (word.becomes.seq type.becomes).imp ?_
      rintro _ _ _ _ _ ⟨m', ⟨keyword', word', same⟩, w', type', sameType⟩
      obtain ⟨named, line⟩ := Ident.onLines_eq sameType
      refine ⟨keyword', m', _, word', same, .value single type' (named ▸ notHole)
        (named ▸ notMeta), ?_⟩
      simp only [Target.onLines, Target.fill, named, line]
  | none noRow noValue =>
      refine word.becomes.imp ?_
      rintro _ _ _ _ _ ⟨keyword', word', same⟩
      exact ⟨keyword', _, .none, word', same, .none noRow noValue, rfl⟩

theorem Listed.becomes_words (lines : LineIndex) {close : Char} (solid : Solid close)
    {words : List Ident} (listed : Listed close Word c words d) :
    Becomes lines c d [] fun lines' c' d' =>
      ∃ words', Listed close Word c' words' d' ∧
        words'.map (·.onLines lines') = words.map (·.onLines lines) :=
  listed.kept lines (fun _ => Word) Ident.onLines solid
    fun _ _ _ word => word.becomes

theorem StatementAt.becomes {s : StatementDecl} (at_ : StatementAt lines c s d) (f : Filling) :
    Becomes lines c d (s.target.edit? f).toList fun lines' c' d' =>
      ∃ s', StatementAt lines' c' s' d' ∧ s'.onLines lines' = (s.fill f).onLines lines := by
  cases at_ with
  | proc word named object opens args =>
      have args := args.becomes_words lines ⟨by decide, by decide⟩
      refine (word.becomes.seq (object.becomes.seq ((opens.becomes ⟨by decide, by decide⟩).seq
        args))).imp ?_
      rintro lines' _ _ _ _ ⟨_, ⟨w', word', same⟩, _, ⟨o', object', sameObject⟩, _, opens',
        args', listed', sameArgs⟩
      obtain ⟨sameName, line⟩ := Ident.onLines_eq same
      refine ⟨_, .proc word' (sameName ▸ named) object' opens' listed', ?_⟩
      simp [StatementDecl.onLines, StatementDecl.fill, Target.fill, Target.onLines, line,
        sameObject, sameArgs]
  | nextval word named object =>
      refine (word.becomes.seq object.becomes).imp ?_
      rintro _ _ _ _ _ ⟨_, ⟨w', word', same⟩, o', object', sameObject⟩
      obtain ⟨sameName, line⟩ := Ident.onLines_eq same
      refine ⟨_, .nextval word' (sameName ▸ named) object', ?_⟩
      simp [StatementDecl.onLines, StatementDecl.fill, Target.fill, Target.onLines, line,
        sameObject]
  | @sql keyword convention target args sql m n o _ word named noProc noNextval at_ args_ block =>
      have settled : Settled n.rest := at_.ends word.ends ▸ n.settled_skip
      have listed := args_.becomes lines (fun _ => Listed ']' Word)
        (fun lines words => words.map (·.onLines lines)) ⟨by decide, by decide⟩ settled
        fun _ _ _ listed => listed.becomes_words lines ⟨by decide, by decide⟩
      have becomes := (at_.becomes word f).seq (listed.seq block.becomes)
      simp only [List.append_nil] at becomes
      refine becomes.imp ?_
      rintro _ _ _ _ _ ⟨_, ⟨keyword', m', t', word', same, at', sameTarget⟩, _,
        ⟨args', listed', sameArgs⟩, sql', block', sameSql⟩
      obtain ⟨sameName, line⟩ := Ident.onLines_eq same
      refine ⟨_, .sql word' (sameName ▸ named) noProc noNextval at' listed' block', ?_⟩
      simp [StatementDecl.onLines, StatementDecl.fill, line, sameTarget, sameArgs, sameSql]

theorem StatementsAt.becomes {ss : List StatementDecl} (at_ : StatementsAt lines c ss d)
    (f : Filling) :
    Becomes lines c d (ss.filterMap (·.target.edit? f)) fun lines' c' d' =>
      ∃ ss', StatementsAt lines' c' ss' d' ∧
        ss'.map (·.onLines lines') = (ss.map (·.fill f)).map (·.onLines lines) := by
  induction at_ with
  | done closes =>
      refine (closes.becomes ⟨by decide, by decide⟩).imp fun _ _ _ _ _ closes' => ?_
      exact ⟨[], .done closes', rfl⟩
  | more first _ ih =>
      rw [filterMap_cons_eq]
      refine ((first.becomes f).seq ih).imp ?_
      rintro _ _ _ _ _ ⟨_, ⟨s', first', same⟩, ss', rest', others⟩
      exact ⟨s' :: ss', .more first' rest', by simp only [List.map_cons, same, others]⟩

theorem firstRepeated?_eq_none {κ : Type} [BEq κ] {α β : Type} {key : α → κ} {key' : β → κ} :
    ∀ {as : List α} {bs : List β} (seen : List κ), as.map key = bs.map key' →
      firstRepeated? key seen as = none → firstRepeated? key' seen bs = none
  | [], [], _, _, _ => rfl
  | a :: as, b :: bs, seen, same, distinct => by
      obtain ⟨first, rest⟩ := List.cons.inj same
      simp only [firstRepeated?, first] at distinct ⊢
      split at distinct
      · cases distinct
      · rename_i fresh
        rw [if_neg fresh]
        exact firstRepeated?_eq_none _ rest distinct

theorem MethodAt.becomes {keyword : Ident} {method : MethodDecl}
    (at_ : MethodAt lines keyword c method d) (f : Filling) :
    Becomes lines c d
      (method.params.filterMap (·.edit? f) ++ method.statements.filterMap (·.target.edit? f))
      fun lines' c' d' =>
        ∀ keyword' : Ident, lines'.line keyword'.span.start = lines.line keyword.span.start →
          ∃ method', MethodAt lines' keyword' c' method' d' ∧
            method'.onLines lines' = (method.fill f).onLines lines := by
  obtain ⟨⟨p, q, r, s, word, opens, params, begins, statements⟩, line, distinct⟩ := at_
  have params := params.becomes lines ParamAt ParamDecl.onLines ⟨by decide, by decide⟩
    fun _ _ _ _ at_ => at_.becomes f
  have becomes := word.becomes.seq ((opens.becomes ⟨by decide, by decide⟩).seq (params.seq
    ((begins.becomes ⟨by decide, by decide⟩).seq (statements.becomes f))))
  refine becomes.imp ?_
  rintro lines' c' d' _ _ ⟨_, ⟨name', word', same⟩, _, opens', _, ⟨params', listed', sameParams⟩, _,
    begins', ss', statements', others⟩ keyword' level
  refine ⟨⟨name', lines'.line keyword'.span.start, params', ss'⟩,
    ⟨⟨_, _, _, _, word', opens', listed', begins', statements'⟩, rfl, ?_⟩, ?_⟩
  · refine firstRepeated?_eq_none [] ?_ distinct
    have names := congrArg (List.map (·.name.name)) sameParams
    simpa [ParamDecl.onLines, ParamDecl.fill, Ident.onLines, Function.comp_def] using names.symm
  · rw [List.map_map] at others
    simp [MethodDecl.onLines, MethodDecl.fill, same, level, line, sameParams, others,
      Function.comp_def]

namespace Draft

def fill (f : Filling) (lines : LineIndex) (draft : Draft) : Draft :=
  ⟨draft.name, draft.rows.map (·.fill f lines), draft.methods.map (·.fill f)⟩

def onLines (lines : LineIndex) (draft : Draft) : Draft :=
  ⟨draft.name.map (·.onLines lines), draft.rows.map (·.onLines lines),
    draft.methods.map (·.onLines lines)⟩

def edits (f : Filling) (draft : Draft) : List Edit :=
  draft.methods.flatMap (·.edits f) ++ draft.rows.filterMap (·.edit? f)

variable {f : Filling} {draft draft' : Draft}

theorem name_of_onLines (same : draft'.onLines lines' = (draft.fill f lines).onLines lines) :
    draft'.name.map (·.onLines lines') = draft.name.map (·.onLines lines) :=
  congrArg Draft.name same

theorem rows_of_onLines (same : draft'.onLines lines' = (draft.fill f lines).onLines lines) :
    draft'.rows.map (·.onLines lines') =
      (draft.rows.map (·.fill f lines)).map (·.onLines lines) :=
  congrArg Draft.rows same

theorem methods_of_onLines (same : draft'.onLines lines' = (draft.fill f lines).onLines lines) :
    draft'.methods.map (·.onLines lines') =
      (draft.methods.map (·.fill f)).map (·.onLines lines) :=
  congrArg Draft.methods same

theorem any_row (same : draft'.onLines lines' = (draft.fill f lines).onLines lines)
    (name : String) :
    draft'.rows.any (·.name.name == name) = draft.rows.any (·.name.name == name) := by
  have any := congrArg (List.any · (·.name.name == name)) (rows_of_onLines same)
  simpa [List.any_map, Function.comp_def, RowDecl.onLines, Ident.onLines] using any

theorem any_method (same : draft'.onLines lines' = (draft.fill f lines).onLines lines)
    (name : String) :
    draft'.methods.any (·.name.name == name) = draft.methods.any (·.name.name == name) := by
  have any := congrArg (List.any · (·.name.name == name)) (methods_of_onLines same)
  simpa [List.any_map, Function.comp_def, MethodDecl.onLines, MethodDecl.fill, Ident.onLines]
    using any

end Draft

/-- A declaration of a unit becomes what it is with its types, behind what has become of the
declarations before it. -/
theorem ItemAt.becomes {draft next : Draft} (at_ : ItemAt lines draft c next d) (f : Filling) :
    ∃ edits, (draft.edits f ++ edits).Perm (next.edits f) ∧
      Becomes lines c d edits fun lines' c' d' =>
        ∀ draft' : Draft, draft'.onLines lines' = (draft.fill f lines).onLines lines →
          ∃ next', ItemAt lines' draft' c' next' d' ∧
            next'.onLines lines' = (next.fill f lines).onLines lines := by
  cases at_ with
  | unit word named fresh name =>
      refine ⟨_, ?_, (word.becomes.seq name.becomes).imp ?_⟩
      · rw [List.append_nil, List.append_nil]
        exact .refl _
      · rintro lines' _ _ _ _ ⟨_, ⟨w', word', same⟩, name', there', sameName⟩ draft' before
        obtain ⟨sameWord, _⟩ := Ident.onLines_eq same
        have unnamed := Draft.name_of_onLines before
        rw [fresh] at unnamed
        refine ⟨_, .unit word' (sameWord.trans named) (by simpa using unnamed) there', ?_⟩
        simp only [Draft.onLines, Draft.fill, Option.map_some, sameName,
          Draft.rows_of_onLines before, Draft.methods_of_onLines before]
  | @row keyword r _ _ word named there fresh =>
      refine ⟨_, ?_, (word.becomes.seq (there.becomes f)).imp ?_⟩
      · simp [Draft.edits, List.filterMap_append, filterMap_cons_eq]
      · rintro lines' _ _ _ _ ⟨_, ⟨w', word', same⟩, rows⟩ draft' before
        obtain ⟨sameWord, line⟩ := Ident.onLines_eq same
        obtain ⟨r', there', sameRow⟩ := rows w' line
        have name : r'.name.name = r.name.name := by
          have names := congrArg (·.name.name) sameRow
          simpa [RowDecl.onLines, Ident.onLines] using names
        refine ⟨_, .row word' (sameWord.trans named) there' ?_, ?_⟩
        · rw [name, Draft.any_row before, fresh]
        · simp only [Draft.onLines, Draft.fill, List.map_append, List.map_singleton, sameRow,
            Draft.name_of_onLines before, Draft.rows_of_onLines before,
            Draft.methods_of_onLines before]
  | @method keyword method _ _ word named there fresh =>
      refine ⟨_, ?_, (word.becomes.seq (there.becomes f)).imp ?_⟩
      · refine List.perm_iff_count.2 fun edit => ?_
        simp only [Draft.edits, MethodDecl.edits, List.flatMap_append, List.flatMap_singleton,
          List.count_append, List.count_nil]
        omega
      · rintro lines' _ _ _ _ ⟨_, ⟨w', word', same⟩, methods⟩ draft' before
        obtain ⟨sameWord, line⟩ := Ident.onLines_eq same
        obtain ⟨method', there', sameMethod⟩ := methods w' line
        have name : method'.name.name = method.name.name := by
          have names := congrArg (·.name.name) sameMethod
          simpa [MethodDecl.onLines, MethodDecl.fill, Ident.onLines] using names
        refine ⟨_, .method word' (sameWord.trans named) there' ?_, ?_⟩
        · rw [name, Draft.any_method before, fresh]
        · simp only [Draft.onLines, Draft.fill, List.map_append, List.map_singleton, sameMethod,
            Draft.name_of_onLines before, Draft.rows_of_onLines before,
            Draft.methods_of_onLines before]

theorem ItemsAt.becomes {draft last : Draft} (at_ : ItemsAt lines draft c last d) (f : Filling) :
    d.rest = [] ∧ ∃ edits, (draft.edits f ++ edits).Perm (last.edits f) ∧
      Becomes lines c d edits fun lines' c' d' =>
        ∀ draft' : Draft, draft'.onLines lines' = (draft.fill f lines).onLines lines →
          ∃ last', ItemsAt lines' draft' c' last' d' ∧
            last'.onLines lines' = (last.fill f lines).onLines lines := by
  induction at_ with
  | @done draft c ended =>
      have settled : Settled c.rest := by
        rw [ended]
        trivial
      refine ⟨ended, [], by rw [List.append_nil], (Becomes.here settled).imp ?_⟩
      rintro lines' c' d' _ _ ⟨rfl, ahead⟩ draft' same
      exact ⟨draft', .done (ahead.nil.1 ended), same⟩
  | more first _ ih =>
      obtain ⟨ended, later, perm, rest⟩ := ih
      obtain ⟨here, permHere, item⟩ := first.becomes f
      refine ⟨ended, here ++ later, ?_, (item.seq rest).imp ?_⟩
      · rw [← List.append_assoc]
        exact (permHere.append_right later).trans perm
      · rintro lines' c' d' _ _ ⟨m', one, others⟩ draft' same
        obtain ⟨next', first', sameNext⟩ := one draft' same
        obtain ⟨last', rest', sameLast⟩ := others next' sameNext
        exact ⟨last', .more first' rest', sameLast⟩

theorem undeclaredRow?_of_onLines {f : Filling} {draft draft' : Draft}
    (same : draft'.onLines lines' = (draft.fill f lines).onLines lines)
    (declared : undeclaredRow? draft = none) : undeclaredRow? draft' = none := by
  rw [undeclaredRow?_eq_none] at declared ⊢
  intro method' member s' inside name' target
  have method := List.mem_map_of_mem (f := MethodDecl.onLines lines') member
  rw [Draft.methods_of_onLines same, List.map_map] at method
  obtain ⟨method, member, sameMethod⟩ := List.mem_map.1 method
  have s := List.mem_map_of_mem (f := StatementDecl.onLines lines') inside
  have statements := congrArg MethodDecl.statements sameMethod
  simp only [MethodDecl.onLines, MethodDecl.fill, Function.comp_apply] at statements
  rw [← statements, List.map_map] at s
  obtain ⟨s, inside, sameStatement⟩ := List.mem_map.1 s
  have targets := congrArg StatementDecl.target sameStatement
  simp only [StatementDecl.onLines, StatementDecl.fill, Function.comp_apply, target] at targets
  rw [Draft.any_row same]
  cases found : s.target with
  | none =>
      rw [found] at targets
      cases targets
  | value type span =>
      rw [found] at targets
      cases type <;> cases targets
  | row name =>
      rw [found] at targets
      have names : name.onLines lines = name'.onLines lines' := Target.row.inj targets
      have named : name.name = name'.name := (congrArg Ident.name names :)
      rw [← named]
      exact declared method member s inside name found

end SqlUnits.Scanner

namespace SqlUnits.SourceUnit

open Scanner

/-- The edits that fill in a unit, in the order of its text, make a text that is read as the unit
that is filled in. -/
theorem scan_spliced {path source : String} {unit : SourceUnit}
    (read : scan path source = .ok unit) (f : Filling) :
    ∃ edits text again, Spliced 0 edits source.toList text ∧
      edits.Perm (unit.methods.flatMap (·.edits f) ++ unit.rows.filterMap (·.edit? f)) ∧
      scan path (String.ofList text) = .ok again ∧ again.onLines = (unit.fill f).onLines := by
  obtain ⟨draft, d, name, at_, named, declared, rfl⟩ := scan_eq_ok.1 read
  obtain ⟨ended, edits, perm, becomes⟩ := at_.becomes f
  obtain ⟨text, d', spliced, read'⟩ := becomes.whole ended
  obtain ⟨draft', at', same⟩ := read' ⟨none, [], []⟩ rfl
  obtain ⟨name', named', sameName⟩ : ∃ name', draft'.name = some name' ∧
      name'.onLines (.ofText text) = name.onLines (.ofText source.toList) := by
    have names := Draft.name_of_onLines same
    rw [named, Option.map_some] at names
    exact Option.map_eq_some_iff.1 names
  refine ⟨edits, text, ⟨path, String.ofList text, name',
    (LineIndex.ofText text).line name'.span.start, draft'.rows, draft'.methods⟩,
    spliced, perm, ?_, ?_⟩
  · refine scan_eq_ok.2 ⟨draft', d', name', ?_, named',
      undeclaredRow?_of_onLines same declared, ?_⟩
    · rw [String.toList_ofList]
      exact at'
    · rw [String.toList_ofList]
  · obtain ⟨_, line⟩ := Ident.onLines_eq sameName
    simp only [SourceUnit.onLines, SourceUnit.fill, SourceUnit.lines, String.toList_ofList,
      sameName, line, Draft.rows_of_onLines same, Draft.methods_of_onLines same]

/-- A unit whose open types are filled in: the edits are accepted in the order in which they are
made, and the text that they make is that of the unit with these types. -/
theorem scan_fill {path source : String} {unit : SourceUnit}
    (read : scan path source = .ok unit) (f : Filling) :
    ∃ edits rows all text again,
      (unit.methods.flatMap (·.edits f)).foldlM EditList.add {} = .ok edits ∧
      (unit.rows.filterMap (·.edit? f)).foldlM EditList.add {} = .ok rows ∧
      edits.extend rows = .ok all ∧ all.apply source = .ok text ∧
      scan path text = .ok again ∧ again.onLines = (unit.fill f).onLines := by
  obtain ⟨edits, text, again, spliced, perm, scans, same⟩ := scan_spliced read f
  obtain ⟨list, rows, all, added, addedRows, extended, applied⟩ :=
    spliced.extend_apply perm.symm
  rw [String.ofList_toList] at applied
  exact ⟨list, rows, all, _, again, added, addedRows, extended, applied, scans, same⟩

/-- The edit of a row is that for the shape which is recorded for it. -/
theorem rowEdit?_eq {unit : SourceUnit} {shapes : ShapeRegistry} {f : Filling} {r : RowDecl}
    (recorded : r.fields = none → shapes.get? (unit.qualified r.name.name) = f.row r) :
    TypedUnit.rowEdit? unit shapes r = r.edit? f := by
  unfold TypedUnit.rowEdit? RowDecl.edit? Filling.fields
  cases fields : r.fields with
  | some list => rfl
  | none =>
      rw [recorded fields]
      cases f.row r with
      | none => rfl
      | some shape => cases found : discoveredFields shape <;> simp [found]

theorem rowEdits_eq {unit : SourceUnit} {shapes : ShapeRegistry} {f : Filling}
    (recorded : ∀ r ∈ unit.rows, r.fields = none →
      shapes.get? (unit.qualified r.name.name) = f.row r) :
    TypedUnit.rowEdits unit shapes = (unit.rows.filterMap (·.edit? f)).foldlM EditList.add {} := by
  unfold TypedUnit.rowEdits
  rw [List.filterMap_congr fun r member => rowEdit?_eq (recorded r member)]

/-- Whatever built-in types are found for a unit, and whatever shapes are recorded for its bare
rows: the edits that write them are never refused, and the text that they make is that of the same
unit with these types and fields, every part on its line. -/
theorem scan_written {path source : String} {unit : SourceUnit} (shapes : ShapeRegistry)
    (read : scan path source = .ok unit) (f : Filling)
    (recorded : ∀ r ∈ unit.rows, r.fields = none →
      shapes.get? (unit.qualified r.name.name) = f.row r) :
    ∃ edits rows all text again,
      (unit.methods.flatMap (·.edits f)).foldlM EditList.add {} = .ok edits ∧
      TypedUnit.rowEdits unit shapes = .ok rows ∧
      edits.extend rows = .ok all ∧ all.apply unit.source = .ok text ∧
      scan path text = .ok again ∧ again.onLines = (unit.fill f).onLines := by
  obtain ⟨edits, rows, all, text, again, added, addedRows, extended, applied, scans, same⟩ :=
    scan_fill read f
  rw [← rowEdits_eq recorded] at addedRows
  rw [← scan_source read] at applied
  exact ⟨edits, rows, all, text, again, added, addedRows, extended, applied, scans, same⟩

/-- Long integers everywhere, and rows of one such column. -/
def longs : Filling where
  param _ := .long
  value _ := .long
  row r := some ⟨"A::" ++ r.name.name, false, [{ name := "N", valueType := some .long }], []⟩
  param_builtin _ := by decide
  value_builtin _ := by decide
  row_isWritten _ shape chosen := by
    cases chosen
    refine ⟨by simp, .inr fun column member => ⟨.long, by decide, ?_⟩⟩
    rw [List.mem_singleton.1 member]

/-- A method of which every type is left open, and a bare row. -/
def openText : String :=
  "unit A row R fn m(x=1)\x7bone R\x7bSELECT :x\x7dvalue _\x7bSELECT 1\x7d\x7d"

def longRows : ShapeRegistry :=
  ⟨[⟨"A::R", false, [{ name := "N", valueType := some .long }], []⟩]⟩

theorem scan_written_longs :
    ∃ unit edits rows all text again,
      scan "a" openText = .ok unit ∧
      (unit.methods.flatMap (·.edits longs)).foldlM EditList.add {} = .ok edits ∧
      TypedUnit.rowEdits unit longRows = .ok rows ∧
      EditList.extend edits rows = .ok all ∧ EditList.apply all unit.source = .ok text ∧
      scan "a" text = .ok again ∧ again.onLines = (unit.fill longs).onLines := by
  have names : (scan "a" openText).toOption.map
      (fun unit => (unit.name.name, unit.rows.map (·.name.name))) = some ("A", ["R"]) := by
    decide +kernel
  cases read : scan "a" openText with
  | error e =>
      rw [read] at names
      cases names
  | ok unit =>
      rw [read] at names
      obtain ⟨name, rows⟩ := Prod.mk.inj (Option.some.inj names)
      have recorded : ∀ r ∈ unit.rows, r.fields = none →
          longRows.get? (unit.qualified r.name.name) = longs.row r := by
        intro r member _
        have row := List.mem_map_of_mem (f := fun r : RowDecl => r.name.name) member
        rw [rows, List.mem_singleton] at row
        show _ = some (⟨"A::" ++ r.name.name, _, _, _⟩ : RowShape)
        rw [SourceUnit.qualified, name, row]
        decide
      obtain ⟨edits, rows, all, text, again, written⟩ := scan_written longRows read longs recorded
      exact ⟨unit, edits, rows, all, text, again, rfl, written⟩

end SqlUnits.SourceUnit
