import SqlUnits.Proofs.Query.Placement
import SqlUnits.Proofs.Unit.Declaring
import SqlUnits.Proofs.Unit.Filling
import SqlUnits.Proofs.Value.Named
/-!
Where the parts of a unit stand in its text. Every identifier is the text of its span, no two of
them touch, and lines count the newlines before what stands on them.
-/

namespace SqlUnits

/-- The word that a target is written as; a type that is left open is a hole. -/
def Target.ident? : Target → Option Ident
  | .none => Option.none
  | .row name => some name
  | .value type span => some ⟨type.elim "_" (·.name), span⟩

/-- The identifiers of a statement as they are written one behind the other. -/
def StatementDecl.idents (s : StatementDecl) : List Ident :=
  s.object.toList ++ s.target.ident?.toList ++ s.args.getD []

def MethodDecl.idents (m : MethodDecl) : List Ident :=
  m.name :: (m.params.map (·.name) ++ m.statements.flatMap (·.idents))

def Declaration.idents : Declaration → List Ident
  | unit name => [name]
  | row r => [r.name]
  | method m => m.idents

def SourceUnit.idents (unit : SourceUnit) : List Ident :=
  unit.name :: (unit.rows.map (·.name) ++ unit.methods.flatMap (·.idents))

namespace Scanner

variable {c d e m n : Cursor} {lines : LineIndex}

/-- Words, and whatever stands before, between and behind them. -/
inductive Words : Cursor → List Ident → Cursor → Prop
  | done {c d : Cursor} : Before c d → Words c [] d
  | word {c m n d : Cursor} {w : Ident} {ws : List Ident} :
      Before c m → Word m w n → Words n ws d → Words c (w :: ws) d

theorem Words.behind {ws : List Ident} (gap : Before c d) (words : Words d ws e) :
    Words c ws e := by
  cases words with
  | done more => exact .done (gap.trans more)
  | word more word rest => exact .word (gap.trans more) word rest

theorem Words.append {ws vs : List Ident} (first : Words c ws d) (second : Words d vs e) :
    Words c (ws ++ vs) e := by
  induction first with
  | done gap => exact second.behind gap
  | word gap word _ ih => exact .word gap word (ih second)

theorem Words.ahead {ws : List Ident} (words : Words c ws d) (gap : Before d e) :
    Words c ws e := by
  have whole := words.append (.done gap)
  rwa [List.append_nil] at whole

theorem Word.words {w : Ident} (word : Word c w d) : Words c [w] d :=
  .word (.refl c) word (.done (.refl d))

theorem Words.each {ws : List Ident} (words : Words c ws d) :
    ∀ w ∈ ws, ∃ m n, Before c m ∧ Word m w n := by
  induction words with
  | done => exact fun _ member => absurd member List.not_mem_nil
  | word gap word _ ih =>
      refine List.forall_mem_cons.2 ⟨⟨_, _, gap, word⟩, fun w member => ?_⟩
      obtain ⟨m, n, behind, here⟩ := ih w member
      exact ⟨m, n, (gap.trans word.before).trans behind, here⟩

theorem byteLength_pos {cs : Text} (some : cs ≠ []) : 0 < Text.byteLength cs := by
  cases cs with
  | nil => exact absurd rfl some
  | cons x rest =>
      have positive := x.utf8Size_pos
      rw [Text.byteLength_cons]
      omega

/-- Between a word and a later one there is a character that is in neither. -/
theorem Word.apart {w v : Ident} (word : Word c w m) (gap : Before m n) (later : Word n v d) :
    w.span.stop < v.span.start := by
  obtain ⟨_, span, t, stretch, trivia, rfl, _, stops⟩ := word
  obtain ⟨u, between⟩ := gap
  obtain ⟨x, ahead, letter, _⟩ := later.head
  have some : trivia ++ u ≠ [] := by
    intro none
    rw [between.rest, ← List.append_assoc, none, List.nil_append, ahead] at stops
    exact absurd letter (ne_true_of_eq_false stops)
  have bytes := byteLength_pos some
  have first := stretch.offset
  have second := between.offset
  rw [Text.byteLength_append] at bytes first
  rw [span, later.span]
  dsimp only
  omega

theorem Words.apart {ws : List Ident} (words : Words c ws d) :
    ws.Pairwise fun w v => w.span.stop < v.span.start := by
  induction words with
  | done => exact .nil
  | word _ word rest ih =>
      refine .cons (fun v member => ?_) ih
      obtain ⟨m, n, behind, here⟩ := rest.each v member
      exact word.apart behind here

/-! The words of each part of the grammar. -/

section

variable {α : Type} {close sign : Char} {Item : Cursor → α → Cursor → Prop}
  {idents : α → List Ident}

theorem Items.words (item : ∀ c a d, Item c a d → Words c (idents a) d) {items : List α}
    (reads : Items close Item c items d) : Words c (items.flatMap idents) d := by
  induction reads with
  | last one closes =>
      rw [List.flatMap_singleton]
      exact (item _ _ _ one).ahead closes.before
  | more one comma _ ih => exact ((item _ _ _ one).ahead comma.before).append ih

theorem Listed.words (item : ∀ c a d, Item c a d → Words c (idents a) d) {items : List α}
    (reads : Listed close Item c items d) : Words c (items.flatMap idents) d := by
  rcases reads with ⟨rfl, closes⟩ | ⟨_, reads⟩
  · exact .done closes.before
  · exact reads.words item

theorem Announced.words (item : ∀ c a d, Item c a d → Words c (idents a) d) {part : Option α}
    (reads : Announced sign Item c part d) : Words c (part.toList.flatMap idents) d := by
  rcases reads with ⟨m, a, opens, one, rfl⟩ | ⟨_, rfl, rfl⟩
  · rw [Option.toList_some, List.flatMap_singleton]
    exact (item _ _ _ one).behind opens.before
  · exact .done (.refl d)

end

theorem Listed.names {close : Char} {names : List Ident} (reads : Listed close Word c names d) :
    Words c names d := by
  have words := reads.words fun _ _ _ word => word.words
  rwa [List.flatMap_singleton'] at words

theorem ParamAt.words {p : ParamDecl} (at_ : ParamAt lines c p d) : Words c [p.name] d := by
  obtain ⟨⟨m, n, word, note, value⟩, _, _⟩ := at_
  have type := note.before fun _ _ _ type => type.before
  have sample := value.before fun _ _ _ sample => sample.before
  exact word.words.ahead (type.trans sample)

theorem TargetAt.words {convention : Convention} {t : Target} (at_ : TargetAt convention c t d) :
    Words c t.ident?.toList d := by
  cases at_ with
  | row _ word => exact word.words
  | @discovered w _ _ word hole =>
      change Words c [⟨"_", w.span⟩] d
      rw [← hole]
      exact word.words
  | @value w _ _ word _ _ =>
      change Words c [⟨(ValueType.ofName w.name).name, w.span⟩] d
      rw [ValueType.name_ofName]
      exact word.words
  | none => exact .done (.refl c)

theorem StatementAt.words {s : StatementDecl} (at_ : StatementAt lines c s d) :
    Words c s.idents d := by
  cases at_ with
  | proc keyword _ object opens args =>
      exact ((object.words.behind keyword.before).ahead opens.before).append args.names
  | nextval keyword _ object => exact object.words.behind keyword.before
  | @sql _ _ _ args _ _ n o _ keyword _ _ _ at_ note block =>
      have args : Words n (args.getD []) o := by
        have words : Words n (args.toList.flatMap id) o :=
          note.words fun _ _ _ listed => listed.names
        cases args <;> simpa using words
      exact ((at_.words.behind keyword.before).append args).ahead block.before

theorem StatementsAt.words {ss : List StatementDecl} (at_ : StatementsAt lines c ss d) :
    Words c (ss.flatMap (·.idents)) d := by
  induction at_ with
  | done closes => exact .done closes.before
  | more first _ ih => exact first.words.append ih

theorem MethodAt.words {keyword : Ident} {m : MethodDecl} (at_ : MethodAt lines keyword c m d) :
    Words c m.idents d := by
  obtain ⟨⟨p, q, r, s, name, opens, params, begins, statements⟩, _, _⟩ := at_
  have params := params.words fun _ _ _ param => param.words
  rw [← List.map_eq_flatMap] at params
  exact (name.words.ahead opens.before).append ((params.ahead begins.before).append
    statements.words)

theorem DeclarationAt.words {decl : Declaration} (at_ : DeclarationAt lines c decl d) :
    Words c decl.idents d := by
  cases at_ with
  | unit word _ name => exact name.words.behind word.before
  | row word _ there =>
      obtain ⟨⟨_, name, note⟩, _, _⟩ := there
      have fields := note.before fun _ _ _ listed => listed.before fun _ _ _ field => field.before
      exact (name.words.ahead fields).behind word.before
  | method word _ there => exact there.words.behind word.before

theorem DeclarationsAt.words {decls : List Declaration} (at_ : DeclarationsAt lines c decls d) :
    Words c (decls.flatMap (·.idents)) d := by
  induction at_ with
  | done => exact .done (.refl _)
  | more first _ ih => exact first.words.append ih

/-- A word is the text of its span. -/
theorem Word.slice {whole : Text} {w : Ident} (behind : Before ⟨0, whole⟩ c) (word : Word c w d) :
    w.span.stop ≤ Text.byteLength whole ∧ Text.slice? whole w.span = some w.name.toList := by
  obtain ⟨before, rest, offset⟩ := behind
  obtain ⟨_, span, _, stretch, gap, rfl, _⟩ := word
  obtain rfl : whole = before ++ c.rest := rest
  rw [span, offset, Nat.zero_add, stretch.rest, List.append_assoc]
  refine ⟨?_, Text.slice?_append before w.name.toList (gap ++ d.rest)⟩
  simp only [Text.byteLength_append]
  omega

/-- The text of a statement is what stands at its offset. -/
theorem SqlAt.slice {whole : Text} {s : SqlText} (behind : Before ⟨0, whole⟩ c)
    (at_ : SqlAt c s d) :
    Text.slice? whole ⟨s.offset, s.offset + Text.byteLength s.text.toList⟩ =
      some s.text.toList := by
  obtain ⟨before, behind⟩ := behind
  obtain ⟨inside, gap, stretch, _, _, _, rfl⟩ := at_
  obtain ⟨_, e, first, offset, rfl⟩ := blockText_cut stretch
  obtain ⟨trail, cut⟩ := Text.trimEnd_cut (Text.trimStart inside)
  have lead : inside = inside.takeWhile Text.isBlank ++ (Text.trim inside ++ trail) := by
    rw [Text.trim, ← cut]
    exact List.takeWhile_append_dropWhile.symm
  have ahead : e.rest = Text.trim inside ++ (trail ++ '\x7d' :: (gap ++ d.rest)) := by
    have both : inside.takeWhile Text.isBlank ++ e.rest = inside ++ '\x7d' :: (gap ++ d.rest) := by
      simpa using first.rest.symm.trans stretch.rest
    refine List.append_cancel_left (both.trans ?_)
    calc
      _ = _ := congrArg (· ++ '\x7d' :: (gap ++ d.rest)) lead
      _ = _ := by simp only [List.append_assoc]
  have place := behind.trans first
  have whole := place.rest
  dsimp only at whole
  rw [offset, place.offset, Nat.zero_add, whole, ahead]
  simp only [blockText, String.toList_ofList]
  exact Text.slice?_append _ _ _

theorem FieldAt.line_eq {f : FieldDecl} (at_ : FieldAt lines c f d) :
    f.line = lines.line c.offset := by
  obtain ⟨w, _, _, _, name, _, _, rfl⟩ := at_
  rw [name.span]

theorem StatementAt.block {s : StatementDecl} {sql : SqlText} (at_ : StatementAt lines c s d)
    (text : s.sql = some sql) : ∃ m n, Before c m ∧ SqlAt m sql n := by
  cases at_ with
  | proc | nextval => cases text
  | sql keyword _ _ _ target note block =>
      obtain rfl := Option.some.inj text
      have args := note.before fun _ _ _ listed => listed.before fun _ _ _ word => word.before
      exact ⟨_, _, (keyword.before.trans target.before).trans args, block⟩

end Scanner

namespace SourceUnit

open Scanner

/-- Where the identifiers and the statements of a unit stand. -/
structure Spanned (unit : SourceUnit) : Prop where
  names : ∀ w ∈ unit.idents, w.span.stop ≤ Text.byteLength unit.source.toList ∧
    Text.slice? unit.source.toList w.span = some w.name.toList
  apart : unit.idents.Pairwise fun w v =>
    w.span.stop < v.span.start ∨ v.span.stop < w.span.start
  ordered : ∀ m ∈ unit.methods, m.idents.Pairwise fun w v => w.span.stop < v.span.start
  sql : ∀ m ∈ unit.methods, ∀ s ∈ m.statements, ∀ sql, s.sql = some sql →
    Text.slice? unit.source.toList ⟨sql.offset, sql.offset + Text.byteLength sql.text.toList⟩ =
      some sql.text.toList

/-- A line is that of a place: one more than the newlines before it. -/
def Begins (source : Text) (c : Scanner.Cursor) (line : Nat) : Prop :=
  ∃ before, Stretch ⟨0, source⟩ before c ∧ line = Text.newlines before + 1

/-- The line of everything is that of the place where it begins. Between the keyword of the unit and
its name newlines are counted, too. -/
structure Lined (unit : SourceUnit) : Prop where
  name : ∃ before gap c m d keyword, Stretch ⟨0, unit.source.toList⟩ before c ∧
    Word c keyword m ∧ keyword.name = "unit" ∧ Stretch c gap m ∧ Word m unit.name d ∧
    unit.line = Text.newlines before + Text.newlines gap + 1
  rows : ∀ r ∈ unit.rows, ∃ c d, DeclarationAt unit.lines c (.row r) d ∧
    Begins unit.source.toList c r.line ∧
    ∀ f ∈ r.fields.getD [], ∃ m n, Before c m ∧ FieldAt unit.lines m f n ∧ Before n d ∧
      Begins unit.source.toList m f.line
  methods : ∀ m ∈ unit.methods, ∃ c d, DeclarationAt unit.lines c (.method m) d ∧
    Begins unit.source.toList c m.line ∧
    (∀ p ∈ m.params, ∃ m n, Before c m ∧ ParamAt unit.lines m p n ∧ Before n d ∧
      Begins unit.source.toList m p.line) ∧
    ∀ s ∈ m.statements, ∃ m n, Before c m ∧ StatementAt unit.lines m s n ∧ Before n d ∧
      Begins unit.source.toList m s.line

variable {unit : SourceUnit}

/-- The identifiers of a unit are those of its declarations, in another order. -/
theorem Declares.perm {decls : List Declaration} (declares : unit.Declares decls) :
    (decls.flatMap (·.idents)).Perm unit.idents := by
  have sorted (decls : List Declaration) :
      (decls.flatMap (·.idents)).Perm (decls.filterMap (·.unit?) ++
        ((decls.filterMap (·.row?)).map (·.name) ++
          (decls.filterMap (·.method?)).flatMap (·.idents))) := by
    induction decls with
    | nil => rfl
    | cons decl decls ih =>
        cases decl with
        | unit name => exact ih.cons name
        | row r => exact (ih.cons r.name).trans List.perm_middle.symm
        | method m =>
            refine (ih.append_left m.idents).trans ((List.perm_append_comm_assoc _ _ _).trans ?_)
            exact (List.perm_append_comm_assoc _ _ _).append_left _
  have perm := sorted decls
  rwa [declares.name, declares.rows, declares.methods] at perm

theorem scan_spanned {path source : String} (read : scan path source = .ok unit) :
    unit.Spanned := by
  obtain ⟨⟨decls, d, at_, declares⟩, _, _, rfl, _⟩ := scan_iff.1 read
  obtain ⟨_, _, methods⟩ := scan_declared read
  have start := Cursor.before_skip ⟨0, unit.source.toList⟩
  have words := at_.words
  refine ⟨fun w member => ?_, ?_, fun m member => ?_, fun m member s inside sql text => ?_⟩
  · obtain ⟨c, _, behind, word⟩ := words.each w (declares.perm.mem_iff.2 member)
    exact word.slice (start.trans behind)
  · refine (declares.perm.pairwise_iff fun either => either.symm).1 (words.apart.imp ?_)
    exact .inl
  · obtain ⟨_, _, _, at_⟩ := methods m member
    exact at_.words.apart
  · obtain ⟨c, _, behind, at_⟩ := methods m member
    cases at_ with
    | method word _ there =>
        have placed := there.placed (behind.trans word.before)
        obtain ⟨_, _, further, here⟩ := placed.statements s inside
        obtain ⟨_, _, before, block⟩ := here.block text
        exact block.slice (further.trans before)

theorem begins {source : Text} {c : Scanner.Cursor} {line : Nat} (behind : Before ⟨0, source⟩ c)
    (same : line = (LineIndex.ofText source).line c.offset) : Begins source c line := by
  obtain ⟨before, stretch⟩ := behind
  exact ⟨before, stretch, same.trans (line_of_stretch stretch)⟩

theorem scan_lined {path source : String} (read : scan path source = .ok unit) :
    unit.Lined := by
  obtain ⟨_, _, _, rfl, line⟩ := scan_iff.1 read
  obtain ⟨⟨_, _, ⟨before, behind⟩, name⟩, rows, methods⟩ := scan_declared read
  refine ⟨?_, fun r member => ?_, fun m member => ?_⟩
  · cases name with
    | @unit keyword _ m _ word named there =>
        obtain ⟨gap, stretch⟩ := word.before
        refine ⟨before, gap, _, m, _, keyword, behind, word, named, stretch, there, ?_⟩
        rw [line, there.span, line_of_stretch (behind.trans stretch), Text.newlines_append]
  · obtain ⟨c, d, behind, at_⟩ := rows r member
    refine ⟨c, d, at_, ?_⟩
    cases at_ with
    | row word _ there =>
        obtain ⟨⟨_, name, note⟩, line, _⟩ := there
        refine ⟨begins behind (by rw [line, word.span]), fun f among => ?_⟩
        rcases note with ⟨_, fields, opens, listed, made⟩ | ⟨_, none, _⟩
        · rw [made, Option.getD_some] at among
          have outer := (word.before.trans name.before).trans opens.before
          obtain ⟨m, n, inner, field, ends⟩ := listed.each (fun _ _ _ field => field.before) f among
          have place := outer.trans inner
          exact ⟨m, n, place, field, ends, begins (behind.trans place) field.line_eq⟩
        · rw [none] at among
          cases among
  · obtain ⟨c, d, behind, at_⟩ := methods m member
    refine ⟨c, d, at_, ?_⟩
    cases at_ with
    | method word _ there =>
        obtain ⟨⟨_, _, _, _, name, opens, params, starts, statements⟩, line, _⟩ := there
        have outer := (word.before.trans name.before).trans opens.before
        have list := params.before fun _ _ _ param => param.before
        refine ⟨begins behind (by rw [line, word.span]), fun p among => ?_, fun s among => ?_⟩
        · obtain ⟨m, n, inner, param, ends⟩ := params.each (fun _ _ _ param => param.before) p among
          have place := outer.trans inner
          exact ⟨m, n, place, param, (ends.trans starts.before).trans statements.before,
            begins (behind.trans place) param.line_eq⟩
        · obtain ⟨m, n, inner, statement, ends⟩ := statements.placed s among
          have place := ((outer.trans list).trans starts.before).trans inner
          exact ⟨m, n, place, statement, ends, begins (behind.trans place) statement.line_eq⟩

/-- A unit that is read consists of declarations, one of which names it; it is well-formed, and its
identifiers, statements and lines are where its text has them. -/
theorem scan_faithful {path source : String} (read : scan path source = .ok unit) :
    unit.source = source ∧
      (∃ decls d, DeclarationsAt unit.lines (Scanner.Cursor.mk 0 source.toList).skip decls d ∧
        unit.Declares decls) ∧
      unit.WellFormed ∧ unit.Spanned ∧ unit.Lined := by
  obtain ⟨declarations, _, _, rfl, _⟩ := scan_iff.1 read
  exact ⟨rfl, declarations, scan_wellFormed read, scan_spanned read, scan_lined read⟩

theorem scan_faithful_method :
    let source := "// é\nunit U row R(a: int)\nfn m(p: int, q = 'x')\n\x7bone R[p]\n\x7b SELECT 1 \x7d\x7d"
    ∃ unit, scan "u" source = .ok unit ∧ unit.methods.length = 1 ∧ unit.WellFormed ∧
      unit.Spanned ∧ unit.Lined := by
  intro source
  have reads : (scan "u" source).toOption.map (·.methods.length) = some 1 := by decide +kernel
  cases read : scan "u" source with
  | error e =>
      rw [read] at reads
      cases reads
  | ok unit =>
      rw [read] at reads
      obtain ⟨_, _, faithful⟩ := scan_faithful read
      exact ⟨unit, rfl, Option.some.inj reads, faithful⟩

/-- A unit that begins on the first line, with its name on the second one, is on the second line. -/
theorem scan_line_below :
    let source := "unit\nU"
    ∃ unit d, scan "u" source = .ok unit ∧
      DeclarationAt unit.lines ⟨0, source.toList⟩ (.unit unit.name) d ∧
      unit.line = 2 ∧ ¬Begins unit.source.toList ⟨0, source.toList⟩ unit.line := by
  intro source
  have text : source.toList = ['u', 'n', 'i', 't', '\n', 'U'] := by decide +kernel
  have keyword : Reaches (ident "") ⟨0, ['u', 'n', 'i', 't', '\n', 'U']⟩ ⟨"unit", ⟨0, 4⟩⟩
      ⟨5, ['U']⟩ := ⟨⟨4, ['\n', 'U']⟩, by rfl, by rfl⟩
  have name : Reaches (ident "") ⟨5, ['U']⟩ ⟨"U", ⟨5, 6⟩⟩ ⟨6, []⟩ := ⟨⟨6, []⟩, by rfl, by rfl⟩
  have at_ : DeclarationAt (LineIndex.ofText source.toList) ⟨0, source.toList⟩
      (.unit ⟨"U", ⟨5, 6⟩⟩) ⟨6, []⟩ := by
    rw [text]
    exact .unit (reaches_ident.1 keyword) rfl (reaches_ident.1 name)
  refine ⟨⟨"u", source, ⟨"U", ⟨5, 6⟩⟩, 2, [], []⟩, ⟨6, []⟩, ?_, at_, rfl, ?_⟩
  · have start : (Scanner.Cursor.mk 0 source.toList).skip = ⟨0, source.toList⟩ := by
      rw [text]
      rfl
    have whole := DeclarationsAt.more at_ (.done rfl)
    rw [← start] at whole
    refine scan_iff.2 ⟨⟨_, _, whole, rfl, rfl, rfl⟩, ⟨.nil, .nil, nofun⟩, rfl, rfl, ?_⟩
    decide +kernel
  · rintro ⟨before, ⟨rest, _⟩, line⟩
    obtain rfl : before = [] := by simpa using rest
    cases line

end SourceUnit

end SqlUnits
