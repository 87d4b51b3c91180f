import SqlUnits.Proofs.Text.Offset
import SqlUnits.Proofs.Unit.Scan
/-!
Where the declarations of a unit stand in its text. What a declaration consists of lies between
two places; so every part of a unit stands behind a beginning of the text, which makes its line.
-/

namespace SqlUnits.Scanner

variable {c d e : Cursor} {lines : LineIndex}

/-- One place of a text is not behind another. -/
def Before (c d : Cursor) : Prop :=
  ∃ t, Stretch c t d

namespace Before

theorem refl (c : Cursor) : Before c c :=
  ⟨[], .refl c⟩

theorem trans (first : Before c d) (second : Before d e) : Before c e := by
  obtain ⟨t, first⟩ := first
  obtain ⟨u, second⟩ := second
  exact ⟨t ++ u, first.trans second⟩

end Before

theorem Cursor.before_skip (c : Cursor) : Before c c.skip := by
  obtain ⟨gap, stretch, _⟩ := c.skip_gap
  exact ⟨gap, stretch⟩

/-! Each part of the grammar ends behind its beginning. -/

theorem Word.before {w : Ident} (word : Word c w d) : Before c d := by
  obtain ⟨_, _, t, stretch, _⟩ := word
  exact ⟨t, stretch⟩

theorem Sign.before {sign : Char} (reads : Sign sign c d) : Before c d := by
  obtain ⟨t, stretch, _⟩ := reads
  exact ⟨t, stretch⟩

theorem Quote.before {s : String} (quote : Quote c s d) : Before c d := by
  obtain ⟨t, stretch, _⟩ := quote
  exact ⟨t, stretch⟩

theorem SampleAt.before {s : Sample} (reads : SampleAt c s d) : Before c d := by
  cases reads with
  | text quote => exact quote.before
  | number stretch _ _ _ _ => exact ⟨_, stretch⟩
  | word word _ => exact word.before
  | date word _ quote | timestamp word _ quote => exact word.before.trans quote.before
  | hex _ stretch quote _ => exact Before.trans ⟨_, stretch⟩ quote.before

theorem TypeAt.before {type : ValueType} (at_ : TypeAt c type d) : Before c d := by
  obtain ⟨w, word, _⟩ := at_
  exact word.before

section

variable {close sign : Char} {Item : Cursor → α → Cursor → Prop}

theorem Items.before (item : ∀ c a d, Item c a d → Before c d) {items : List α}
    (reads : Items close Item c items d) : Before c d := by
  induction reads with
  | last one closes => exact (item _ _ _ one).trans closes.before
  | more one comma _ ih => exact ((item _ _ _ one).trans comma.before).trans ih

theorem Listed.before (item : ∀ c a d, Item c a d → Before c d) {items : List α}
    (reads : Listed close Item c items d) : Before c d := by
  rcases reads with ⟨_, closes⟩ | ⟨_, reads⟩
  · exact closes.before
  · exact reads.before item

theorem Announced.before (item : ∀ c a d, Item c a d → Before c d) {part : Option α}
    (reads : Announced sign Item c part d) : Before c d := by
  rcases reads with ⟨m, a, opens, one, _⟩ | ⟨_, _, rfl⟩
  · exact opens.before.trans (item _ _ _ one)
  · exact .refl d

/-- Every item of a list stands between the ends of the list. -/
theorem Items.each (item : ∀ c a d, Item c a d → Before c d) {items : List α}
    (reads : Items close Item c items d) :
    ∀ a ∈ items, ∃ m n, Before c m ∧ Item m a n ∧ Before n d := by
  induction reads with
  | last one closes => exact List.forall_mem_singleton.2 ⟨_, _, .refl _, one, closes.before⟩
  | more one comma rest ih =>
      refine List.forall_mem_cons.2 ⟨⟨_, _, .refl _, one, ?_⟩, fun a member => ?_⟩
      · exact comma.before.trans (rest.before item)
      · obtain ⟨m, n, behind, here⟩ := ih a member
        exact ⟨m, n, ((item _ _ _ one).trans comma.before).trans behind, here⟩

theorem Listed.each (item : ∀ c a d, Item c a d → Before c d) {items : List α}
    (reads : Listed close Item c items d) :
    ∀ a ∈ items, ∃ m n, Before c m ∧ Item m a n ∧ Before n d := by
  rcases reads with ⟨rfl, _⟩ | ⟨_, reads⟩
  · nofun
  · exact reads.each item

end

theorem ParamAt.before {p : ParamDecl} (at_ : ParamAt lines c p d) : Before c d := by
  obtain ⟨⟨m, n, word, note, value⟩, _, _⟩ := at_
  have type := note.before fun _ _ _ type => type.before
  have sample := value.before fun _ _ _ sample => sample.before
  exact (word.before.trans type).trans sample

theorem FieldAt.before {f : FieldDecl} (at_ : FieldAt lines c f d) : Before c d := by
  obtain ⟨w, v, m, n, name, colon, type, _⟩ := at_
  exact (name.before.trans colon.before).trans type.before

theorem RowAt.before {keyword : Ident} {r : RowDecl} (at_ : RowAt lines keyword c r d) :
    Before c d := by
  obtain ⟨⟨m, word, note⟩, _, _⟩ := at_
  have fields := note.before fun _ _ _ listed => listed.before fun _ _ _ field => field.before
  exact word.before.trans fields

theorem SqlAt.before {s : SqlText} (at_ : SqlAt c s d) : Before c d := by
  obtain ⟨inside, gap, stretch, _⟩ := at_
  exact ⟨_, stretch⟩

theorem TargetAt.before {convention : Convention} {t : Target}
    (at_ : TargetAt convention c t d) : Before c d := by
  cases at_ with
  | row _ word | discovered _ word _ | value _ word _ _ => exact word.before
  | none => exact .refl _

theorem StatementAt.before {s : StatementDecl} (at_ : StatementAt lines c s d) : Before c d := by
  have words (c : Cursor) (w : Ident) (d : Cursor) (word : Word c w d) := word.before
  cases at_ with
  | proc keyword _ object opens args =>
      exact ((keyword.before.trans object.before).trans opens.before).trans (args.before words)
  | nextval keyword _ object => exact keyword.before.trans object.before
  | sql keyword _ _ _ target args block =>
      have args := args.before fun _ _ _ listed => listed.before words
      exact ((keyword.before.trans target.before).trans args).trans block.before

theorem StatementsAt.before {ss : List StatementDecl} (at_ : StatementsAt lines c ss d) :
    Before c d := by
  induction at_ with
  | done closes => exact closes.before
  | more first _ ih => exact first.before.trans ih

theorem MethodAt.before {keyword : Ident} {m : MethodDecl} (at_ : MethodAt lines keyword c m d) :
    Before c d := by
  obtain ⟨⟨p, q, r, s, name, opens, params, begins, statements⟩, _, _⟩ := at_
  have params := params.before fun _ _ _ param => param.before
  exact (((name.before.trans opens.before).trans params).trans begins.before).trans
    statements.before

theorem ItemAt.before {draft next : Draft} (at_ : ItemAt lines draft c next d) : Before c d := by
  cases at_ with
  | unit word _ _ name => exact word.before.trans name.before
  | row word _ row _ => exact word.before.trans row.before
  | method word _ method _ => exact word.before.trans method.before

/-! The lines of declarations. -/

theorem ParamAt.line_eq {p : ParamDecl} (at_ : ParamAt lines c p d) :
    p.line = lines.line c.offset := by
  obtain ⟨⟨_, _, word, _, _⟩, line, _⟩ := at_
  rw [line, word.span]

theorem StatementAt.line_eq {s : StatementDecl} (at_ : StatementAt lines c s d) :
    s.line = lines.line c.offset := by
  cases at_ with
  | proc keyword _ _ _ _ | nextval keyword _ _ | sql keyword _ _ _ _ _ _ =>
      dsimp only
      rw [keyword.span]

theorem line_of_stretch {whole before : Text} (behind : Stretch ⟨0, whole⟩ before c) :
    (LineIndex.ofText whole).line c.offset = Text.newlines before + 1 := by
  obtain ⟨rest, offset⟩ := behind
  obtain rfl : whole = before ++ c.rest := rest
  rw [offset, Nat.zero_add, LineIndex.line_ofText]

/-! The parts of a unit. -/

theorem StatementsAt.placed {ss : List StatementDecl} (at_ : StatementsAt lines c ss d) :
    ∀ s ∈ ss, ∃ m n, Before c m ∧ StatementAt lines m s n ∧ Before n d := by
  induction at_ with
  | done => exact fun _ member => absurd member List.not_mem_nil
  | more first rest ih =>
      refine List.forall_mem_cons.2 ⟨⟨_, _, .refl _, first, rest.before⟩, fun s member => ?_⟩
      obtain ⟨m, n, behind, here⟩ := ih s member
      exact ⟨m, n, first.before.trans behind, here⟩

/-- The keyword and the name of a unit. -/
def UnitAt (c : Cursor) (name : Ident) (d : Cursor) : Prop :=
  ∃ keyword m, Word c keyword m ∧ keyword.name = "unit" ∧ Word m name d

/-- What has been read of a method stands behind a place. -/
structure MethodPlaced (lines : LineIndex) (o : Cursor) (m : MethodDecl) : Prop where
  name : IsName m.name.name.toList
  params : ∀ p ∈ m.params, ∃ c d, Before o c ∧ ParamAt lines c p d
  statements : ∀ s ∈ m.statements, ∃ c d, Before o c ∧ StatementAt lines c s d

/-- What has been read of a unit stands behind a place. -/
structure Placed (lines : LineIndex) (o : Cursor) (draft : Draft) : Prop where
  name : ∀ name, draft.name = some name → ∃ c d, Before o c ∧ UnitAt c name d
  methods : ∀ m ∈ draft.methods, MethodPlaced lines o m

theorem MethodAt.placed {o : Cursor} {keyword : Ident} {m : MethodDecl} (behind : Before o c)
    (at_ : MethodAt lines keyword c m d) : MethodPlaced lines o m := by
  obtain ⟨⟨p, q, r, s, name, opens, params, begins, statements⟩, _, _⟩ := at_
  have inside := (behind.trans name.before).trans opens.before
  have body := (inside.trans (params.before fun _ _ _ param => param.before)).trans begins.before
  refine ⟨name.name, fun p member => ?_, fun s member => ?_⟩
  · obtain ⟨c, d, further, here, _⟩ := params.each (fun _ _ _ param => param.before) p member
    exact ⟨c, d, inside.trans further, here⟩
  · obtain ⟨c, d, further, here, _⟩ := statements.placed s member
    exact ⟨c, d, body.trans further, here⟩

theorem ItemAt.placed {o : Cursor} {draft next : Draft} (behind : Before o c)
    (at_ : ItemAt lines draft c next d) (placed : Placed lines o draft) :
    Placed lines o next := by
  cases at_ with
  | unit word unit _ there =>
      refine ⟨?_, placed.methods⟩
      rintro _ ⟨⟩
      exact ⟨_, _, behind, _, _, word, unit, there⟩
  | row => exact ⟨placed.name, placed.methods⟩
  | method word _ there _ =>
      refine ⟨placed.name, fun m member => ?_⟩
      rcases List.mem_append.1 member with earlier | last
      · exact placed.methods m earlier
      · rw [List.mem_singleton.1 last]
        exact there.placed (behind.trans word.before)

theorem ItemsAt.placed {o : Cursor} {draft last : Draft} (at_ : ItemsAt lines draft c last d)
    (behind : Before o c) (placed : Placed lines o draft) : Placed lines o last := by
  induction at_ with
  | done => exact placed
  | more first _ ih => exact ih (behind.trans first.before) (first.placed behind placed)

end SqlUnits.Scanner

namespace SqlUnits.SourceUnit

open Scanner

/-- All parts of a unit stand in its text. -/
theorem scan_placed {path source : String} {unit : SourceUnit}
    (read : scan path source = .ok unit) :
    Placed (LineIndex.ofText source.toList) ⟨0, source.toList⟩
      ⟨some unit.name, unit.rows, unit.methods⟩ := by
  obtain ⟨draft, _, name, at_, named, _, rfl⟩ := scan_eq_ok.1 read
  have placed := at_.placed (Cursor.before_skip _) ⟨nofun, nofun⟩
  exact ⟨named ▸ placed.name, placed.methods⟩

end SqlUnits.SourceUnit
