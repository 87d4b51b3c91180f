import SqlUnits.Proofs.Artifact.Fields
import SqlUnits.Proofs.Unit.Declaring
import SqlUnits.Proofs.Unit.Spelling
import SqlUnits.Proofs.Value.Named
/-!
Every unit can be written: whatever stands between its symbols, it is read from them.
-/

namespace SqlUnits

/-! The symbols of a unit. -/

/-- Items with a comma between any two of them. -/
def commas : List (List Symbol) → List Symbol
  | [] => []
  | [item] => item
  | item :: next :: rest => item ++ .sign ',' :: commas (next :: rest)

def names (idents : List Ident) : List (List Symbol) :=
  idents.map fun w => [.word w.name]

def FieldDecl.symbols (f : FieldDecl) : List Symbol :=
  [.word f.name, .sign ':', .word f.type.name]

def RowDecl.symbols (r : RowDecl) : List Symbol :=
  .word "row" :: .word r.name.name ::
    r.fields.elim [] fun fields => .sign '(' :: (commas (fields.map (·.symbols)) ++ [.sign ')'])

def ParamDecl.symbols (p : ParamDecl) : List Symbol :=
  .word p.name.name ::
    (p.type.elim [] (fun type => .sign ':' :: [.word type.name]) ++
      p.sample.elim [] (fun sample => .sign '=' :: sample.symbols))

def Target.symbols : Target → List Symbol
  | .none => []
  | .row name => [.word name.name]
  | .value type _ => [.word (type.elim "_" (·.name))]

/-- Arguments stand in square brackets, those of a procedure in round ones. -/
def StatementDecl.symbols (s : StatementDecl) : List Symbol :=
  .word s.convention.keyword ::
    match s.convention with
    | .proc =>
        s.object.toList.map (.word ·.name) ++
          .sign '(' :: (commas (names (s.args.getD [])) ++ [.sign ')'])
    | .nextval => s.object.toList.map (.word ·.name)
    | _ =>
        s.target.symbols ++
          (s.args.elim [] (fun args => .sign '[' :: (commas (names args) ++ [.sign ']'])) ++
            s.sql.toList.map (.block ·.text))

def MethodDecl.symbols (m : MethodDecl) : List Symbol :=
  .word "fn" :: .word m.name.name ::
    .sign '(' :: (commas (m.params.map (·.symbols)) ++
      .sign ')' :: .sign '\x7b' :: (m.statements.flatMap (·.symbols) ++ [.sign '\x7d']))

def Declaration.symbols : Declaration → List Symbol
  | unit name => [.word "unit", .word name.name]
  | row r => r.symbols
  | method m => m.symbols

/-- A unit names itself first, and its rows stand before its methods. -/
def SourceUnit.declarations (unit : SourceUnit) : List Declaration :=
  .unit unit.name :: (unit.rows.map .row ++ unit.methods.map .method)

def SourceUnit.symbols (unit : SourceUnit) : List Symbol :=
  unit.declarations.flatMap (·.symbols)

/-! What a unit is apart from where its parts stand. -/

def Ident.unplaced (w : Ident) : Ident :=
  ⟨w.name, .point 0⟩

def FieldDecl.unplaced (f : FieldDecl) : FieldDecl :=
  { f with line := 0 }

def RowDecl.unplaced (r : RowDecl) : RowDecl :=
  ⟨r.name.unplaced, 0, r.fields.map (·.map (·.unplaced))⟩

def ParamDecl.unplaced (p : ParamDecl) : ParamDecl :=
  { p with name := p.name.unplaced, line := 0 }

def Target.unplaced : Target → Target
  | .none => .none
  | .row name => .row name.unplaced
  | .value type _ => .value type (.point 0)

def SqlText.unplaced (s : SqlText) : SqlText :=
  { s with offset := 0 }

def StatementDecl.unplaced (s : StatementDecl) : StatementDecl :=
  ⟨s.convention, 0, s.target.unplaced, s.args.map (·.map (·.unplaced)),
    s.sql.map (·.unplaced), s.object.map (·.unplaced)⟩

def MethodDecl.unplaced (m : MethodDecl) : MethodDecl :=
  ⟨m.name.unplaced, 0, m.params.map (·.unplaced), m.statements.map (·.unplaced)⟩

def Declaration.unplaced : Declaration → Declaration
  | unit name => unit name.unplaced
  | row r => row r.unplaced
  | method m => method m.unplaced

def SourceUnit.unplaced (unit : SourceUnit) : SourceUnit :=
  ⟨unit.path, unit.source, unit.name.unplaced, 0, unit.rows.map (·.unplaced),
    unit.methods.map (·.unplaced)⟩

/-- A parameter whose type has a name, and whose sample is exact. -/
structure ParamDecl.Spellable (p : ParamDecl) : Prop where
  type : ∀ type ∈ p.type, type.IsWritten
  sample : ∀ sample ∈ p.sample, ∀ d, sample ≠ .double d

def Target.Spellable (t : Target) : Prop :=
  ∀ type span, t = .value (some type) span → type.IsWritten

structure MethodDecl.Spellable (m : MethodDecl) : Prop where
  params : ∀ p ∈ m.params, p.Spellable
  targets : ∀ s ∈ m.statements, s.target.Spellable

/-- A declaration that can be written and is read again. -/
def Declaration.Spellable : Declaration → Prop
  | unit _ => True
  | row r => r.fields ≠ some [] ∧ ∀ fields ∈ r.fields, ∀ f ∈ fields, f.type.IsNamed
  | method m => m.WellFormed ∧ m.Spellable

/-- What a symbol has to keep to for there to be a way to write it. -/
def Symbol.Proper : Symbol → Prop
  | word name => Scanner.IsName name.toList
  | sign c => c ∈ signs
  | block sql => IsStatement sql
  | _ => True

/-- A unit whose names are identifiers, whose types have names, whose samples are exact, and whose
statements end where their blocks do. -/
structure SourceUnit.Spellable (unit : SourceUnit) : Prop where
  fields : ∀ r ∈ unit.rows, ∀ fields ∈ r.fields, ∀ f ∈ fields, f.type.IsNamed
  methods : ∀ m ∈ unit.methods, m.Spellable
  symbols : ∀ s ∈ unit.symbols, s.Proper

theorem Symbol.proper_iff {s : Symbol} : s.Proper ↔ ∃ text, s.Spelled text := by
  constructor
  · intro proper
    cases s with
    | word => exact ⟨_, .word proper⟩
    | sign => exact ⟨_, .sign proper⟩
    | int => exact ⟨_, .int⟩
    | long => exact ⟨_, .long⟩
    | quoted => exact ⟨_, .quoted⟩
    | hex => exact ⟨_, .hex (.inl rfl)⟩
    | block => exact ⟨_, .block proper (List.forall_mem_nil _) (List.forall_mem_nil _)⟩
  · rintro ⟨_, spelled⟩
    cases spelled with
    | word isName => exact isName
    | sign member => exact member
    | block statement => exact statement
    | int | long | wide | quoted | hex => trivial

/-- Symbols can be written one behind the other if each of them can. -/
theorem exists_laid {ss : List Symbol} : (∃ text, Laid ss text) ↔ ∀ s ∈ ss, s.Proper := by
  constructor
  · rintro ⟨_, laid⟩
    induction laid with
    | nil => exact List.forall_mem_nil _
    | cons spelled _ _ _ ih =>
        exact List.forall_mem_cons.2 ⟨Symbol.proper_iff.2 ⟨_, spelled⟩, ih⟩
  · intro proper
    induction ss with
    | nil => exact ⟨[], .nil⟩
    | cons s ss ih =>
        obtain ⟨text, spelled⟩ := Symbol.proper_iff.1 (proper s (.head _))
        obtain ⟨rest, laid⟩ := ih fun s member => proper s (.tail _ member)
        exact ⟨_, .spaced (by decide : Text.isBlank ' ' = true) spelled laid⟩

theorem Ident.unplaced_eq {w v : Ident} : w.unplaced = v.unplaced ↔ w.name = v.name := by
  simp [unplaced]

namespace Scanner

variable {lines : LineIndex} {c d : Cursor} {ss : List Symbol}

section

variable {α β : Type} {close sign : Char} {Item : Cursor → α → Cursor → Prop}
  {symbols : α → List Symbol} (like : α → β)

/-- Items between commas are read up to the closing bracket. -/
theorem Items.of_laid {items : List α} (some_ : items ≠ [])
    (item : ∀ a ∈ items, ∀ c ss, ss.head? = some (.sign ',') ∨ ss.head? = some (.sign close) →
      Laid (symbols a ++ ss) c.rest →
        ∃ a' d, Item c a' d ∧ like a' = like a ∧ Laid ss d.rest)
    (laid : Laid (commas (items.map symbols) ++ .sign close :: ss) c.rest) :
    ∃ items' d, Items close Item c items' d ∧ items'.map like = items.map like ∧
      Laid ss d.rest := by
  induction items generalizing c with
  | nil => exact absurd rfl some_
  | cons a items ih =>
      cases items with
      | nil =>
          change Laid (symbols a ++ .sign close :: ss) c.rest at laid
          obtain ⟨a', m, one, same, rest⟩ := item a (.head _) c _ (.inr rfl) laid
          obtain ⟨d, closes, rest⟩ := rest.sign
          exact ⟨[a'], d, .last one closes, congrArg ([·]) same, rest⟩
      | cons b items =>
          simp only [List.map_cons, commas, List.append_assoc] at laid
          obtain ⟨a', m, one, same, rest⟩ := item a (.head _) c _ (.inl rfl) laid
          obtain ⟨n, comma, rest⟩ := rest.sign
          obtain ⟨items', d, more, others, rest⟩ :=
            ih (by simp) (fun a member => item a (.tail _ member)) rest
          refine ⟨a' :: items', d, .more one comma more, ?_, rest⟩
          rw [List.map_cons, same, others]
          rfl

theorem Listed.of_laid (noStart : Symbol.isStart close = false) {items : List α}
    (item : ∀ a ∈ items, ∀ c ss, ss.head? = some (.sign ',') ∨ ss.head? = some (.sign close) →
      Laid (symbols a ++ ss) c.rest →
        ∃ a' d, Item c a' d ∧ like a' = like a ∧ Laid ss d.rest)
    (begins : ∀ a ∈ items, ∃ name more, symbols a = .word name :: more)
    (laid : Laid (commas (items.map symbols) ++ .sign close :: ss) c.rest) :
    ∃ items' d, Listed close Item c items' d ∧ items'.map like = items.map like ∧
      Laid ss d.rest := by
  by_cases none : items = []
  · subst none
    obtain ⟨d, closes, rest⟩ := Laid.sign laid
    exact ⟨[], d, .inl ⟨rfl, closes⟩, rfl, rest⟩
  · have opens : c.rest.head? ≠ some close := by
      refine laid.head_ne ?_ noStart
      obtain ⟨a, items, rfl⟩ := List.exists_cons_of_ne_nil none
      obtain ⟨name, more, first⟩ := begins a (.head _)
      cases items <;> simp [commas, first]
    obtain ⟨items', d, reads, same, rest⟩ := Items.of_laid like none item laid
    exact ⟨items', d, .inr ⟨opens, reads⟩, same, rest⟩

/-- A part is read if its sign announces it, and otherwise not. -/
theorem Announced.of_laid (noStart : Symbol.isStart sign = false) {part : Option α}
    (other : ss.head? ≠ some (.sign sign))
    (item : ∀ a ∈ part, ∀ c, Laid (symbols a ++ ss) c.rest →
      ∃ a' d, Item c a' d ∧ like a' = like a ∧ Laid ss d.rest)
    (laid : Laid (part.elim [] (fun a => .sign sign :: symbols a) ++ ss) c.rest) :
    ∃ part' d, Announced sign Item c part' d ∧ part'.map like = part.map like ∧
      Laid ss d.rest := by
  cases part with
  | none => exact ⟨none, c, .inr ⟨laid.head_ne other noStart, rfl, rfl⟩, rfl, laid⟩
  | some a =>
      obtain ⟨m, opens, rest⟩ := Laid.sign laid
      obtain ⟨a', d, one, same, rest⟩ := item a rfl m rest
      exact ⟨some a', d, .inl ⟨m, a', opens, one, rfl⟩, congrArg some same, rest⟩

end

theorem TypeAt.of_laid {type : ValueType} (written : type.IsWritten)
    (laid : Laid (.word type.name :: ss) c.rest) :
    ∃ type' d, TypeAt c type' d ∧ type' = type ∧ Laid ss d.rest := by
  obtain ⟨w, d, word, named, rest⟩ := laid.word
  refine ⟨type, d, ⟨w, word, ?_, ?_, ?_⟩, rfl, rest⟩ <;> rw [named]
  · exact written.notMeta
  · exact written.notHole
  · exact written.known.symm

theorem ParamAt.of_laid {p : ParamDecl} (spellable : p.Spellable)
    (known : p.type.isSome = true ∨ p.sample.isSome = true)
    (noType : ss.head? ≠ some (.sign ':')) (noSample : ss.head? ≠ some (.sign '='))
    (laid : Laid (p.symbols ++ ss) c.rest) :
    ∃ p' d, ParamAt lines c p' d ∧ p'.unplaced = p.unplaced ∧ Laid ss d.rest := by
  rw [ParamDecl.symbols, List.cons_append, List.append_assoc] at laid
  obtain ⟨w, m, word, named, rest⟩ := laid.word
  -- Where there is no type, neither a sample nor what follows may be taken for one.
  have next : (p.sample.elim [] (fun sample => .sign '=' :: sample.symbols) ++ ss).head? ≠
      some (.sign ':') := by
    cases p.sample with
    | none => exact noType
    | some sample => simp
  obtain ⟨type, n, note, types, rest⟩ := Announced.of_laid id (by decide) next
    (fun t member m laid => TypeAt.of_laid (spellable.type t member) laid) rest
  obtain ⟨sample, d, value, samples, rest⟩ := Announced.of_laid id (by decide) noSample
    (fun s member m laid => by
      obtain ⟨d, at_, rest⟩ := laid.sample (spellable.sample s member)
      exact ⟨s, d, at_, rfl, rest⟩) rest
  rw [Option.map_id_fun, id, id] at types samples
  subst types samples
  refine ⟨⟨w, lines.line w.span.start, p.type, p.sample⟩, d, ⟨⟨m, n, word, note, value⟩, rfl,
    known⟩, ?_, rest⟩
  simp only [ParamDecl.unplaced, Ident.unplaced_eq.2 named]

theorem FieldAt.of_laid {f : FieldDecl} (named : f.type.IsNamed)
    (laid : Laid (f.symbols ++ ss) c.rest) :
    ∃ f' d, FieldAt lines c f' d ∧ f'.unplaced = f.unplaced ∧ Laid ss d.rest := by
  obtain ⟨w, m, name, nameSame, rest⟩ := Laid.word laid
  obtain ⟨n, colon, rest⟩ := rest.sign
  obtain ⟨v, d, type, typeSame, rest⟩ := rest.word
  refine ⟨_, d, ⟨w, v, m, n, name, colon, type, rfl⟩, ?_, rest⟩
  simp only [FieldDecl.unplaced, nameSame, typeSame, FieldType.ofName_name named]

theorem RowAt.of_laid {keyword : Ident} {r : RowDecl} (known : r.fields ≠ some [])
    (named : ∀ fields ∈ r.fields, ∀ f ∈ fields, f.type.IsNamed)
    (other : ss.head? ≠ some (.sign '('))
    (laid : Laid (.word r.name.name ::
      (r.fields.elim [] (fun fields => .sign '(' ::
        (commas (fields.map (·.symbols)) ++ [.sign ')'])) ++ ss)) c.rest) :
    ∃ r' d, RowAt lines keyword c r' d ∧ r'.unplaced = r.unplaced ∧ Laid ss d.rest := by
  obtain ⟨w, m, word, nameSame, rest⟩ := laid.word
  have list (fields : List FieldDecl) (member : fields ∈ r.fields) (m : Cursor)
      (laid : Laid ((commas (fields.map (·.symbols)) ++ [.sign ')']) ++ ss) m.rest) :
      ∃ fields' d, Listed ')' (FieldAt lines) m fields' d ∧
        fields'.map (·.unplaced) = fields.map (·.unplaced) ∧ Laid ss d.rest := by
    rw [List.append_assoc] at laid
    refine Listed.of_laid _ (by decide) (fun f among c ss _ laid => ?_)
      (fun f _ => ⟨_, _, rfl⟩) laid
    exact FieldAt.of_laid (named fields member f among) laid
  obtain ⟨fields, d, note, same, rest⟩ := Announced.of_laid _ (by decide) other list rest
  refine ⟨⟨w, lines.line keyword.span.start, fields⟩, d, ⟨⟨m, word, note⟩, rfl, ?_⟩, ?_, rest⟩
  · rintro rfl
    apply known
    cases fields : r.fields with
    | none => simp [fields] at same
    | some list => simpa [fields] using same
  · simp only [RowDecl.unplaced, Ident.unplaced_eq.2 nameSame, same]

theorem names_of_laid {close : Char} (noStart : Symbol.isStart close = false) {idents : List Ident}
    (laid : Laid (commas (names idents) ++ .sign close :: ss) c.rest) :
    ∃ idents' d, Listed close Word c idents' d ∧
      idents'.map (·.unplaced) = idents.map (·.unplaced) ∧ Laid ss d.rest := by
  refine Listed.of_laid _ noStart (fun w _ c ss _ laid => ?_) (fun w _ => ⟨_, _, rfl⟩) laid
  obtain ⟨w', d, word, named, rest⟩ := Laid.word laid
  exact ⟨w', d, word, Ident.unplaced_eq.2 named, rest⟩

theorem TargetAt.of_laid {convention : Convention} {t : Target}
    (row : convention.isRow = true ↔ ∃ name, t = .row name)
    (value : convention.isSingleColumn = true ↔ ∃ type span, t = .value type span)
    (spellable : t.Spellable) (laid : Laid (t.symbols ++ ss) c.rest) :
    ∃ t' d, TargetAt convention c t' d ∧ t'.unplaced = t.unplaced ∧ Laid ss d.rest := by
  cases t with
  | none =>
      refine ⟨.none, c, .none ?_ ?_, rfl, laid⟩
      · simpa using row
      · simpa using value
  | row name =>
      obtain ⟨w, d, word, named, rest⟩ := Laid.word laid
      exact ⟨.row w, d, .row (row.2 ⟨name, rfl⟩) word,
        congrArg Target.row (Ident.unplaced_eq.2 named), rest⟩
  | value type span =>
      obtain ⟨w, d, word, named, rest⟩ := Laid.word laid
      have single := value.2 ⟨type, span, rfl⟩
      cases type with
      | none => exact ⟨_, d, .discovered single word named, rfl, rest⟩
      | some type =>
          have written := spellable type span rfl
          have named : w.name = type.name := named
          refine ⟨_, d, .value single word (named ▸ written.notHole) (named ▸ written.notMeta), ?_,
            rest⟩
          rw [named, written.known]
          rfl

theorem ofKeyword?_keyword (convention : Convention) :
    Convention.ofKeyword? convention.keyword = some convention := by
  cases convention <;> decide

theorem symbols_sql {s : StatementDecl} (noProc : s.convention ≠ .proc)
    (noNextval : s.convention ≠ .nextval) :
    s.symbols = .word s.convention.keyword :: (s.target.symbols ++
      (s.args.elim [] (fun args => .sign '[' :: (commas (names args) ++ [.sign ']'])) ++
        s.sql.toList.map (.block ·.text))) := by
  unfold StatementDecl.symbols
  split <;> simp_all

/-- A statement without SQL text has an object, and delivers into nothing. -/
theorem bare_of_wellFormed {s : StatementDecl} (formed : s.WellFormed)
    (bare : s.convention = .proc ∨ s.convention = .nextval) :
    s.target = .none ∧ s.sql = none ∧ ∃ object, s.object = some object := by
  have noText : ¬(s.convention ≠ .proc ∧ s.convention ≠ .nextval) :=
    fun ⟨noProc, noNextval⟩ => bare.elim noProc noNextval
  refine ⟨?_, ?_, Option.isSome_iff_exists.1 (formed.object.2 bare)⟩
  · have noRow := mt formed.row.2
    have noValue := mt formed.value.2
    rcases bare with bare | bare <;> cases target : s.target <;>
      simp_all [Convention.isRow, Convention.isSingleColumn]
  · rw [← Option.not_isSome_iff_eq_none]
    exact mt formed.sql.1 noText

theorem StatementAt.of_laid {s : StatementDecl} (formed : s.WellFormed)
    (spellable : s.target.Spellable) (laid : Laid (s.symbols ++ ss) c.rest) :
    ∃ s' d, StatementAt lines c s' d ∧ s'.unplaced = s.unplaced ∧ Laid ss d.rest := by
  obtain ⟨convention, line, target, args, sql, object⟩ := s
  -- The keyword decides what is written behind it, and so what is read.
  by_cases proc : convention = .proc
  · subst proc
    obtain ⟨rfl, rfl, object, rfl⟩ := bare_of_wellFormed formed (.inl rfl)
    obtain ⟨args, rfl⟩ := Option.isSome_iff_exists.1 (formed.proc rfl)
    have laid : Laid (.word "proc" :: .word object.name :: .sign '(' ::
        (commas (names args) ++ .sign ')' :: ss)) c.rest := by
      simpa [StatementDecl.symbols, Convention.keyword] using laid
    obtain ⟨keyword, m, word, named, rest⟩ := laid.word
    obtain ⟨object', n, there, sameObject, rest⟩ := rest.word
    obtain ⟨o, opens, rest⟩ := rest.sign
    obtain ⟨args', d, listed, sameArgs, rest⟩ := names_of_laid (by decide) rest
    have known : Convention.ofKeyword? keyword.name = some .proc :=
      named ▸ ofKeyword?_keyword .proc
    refine ⟨_, d, .proc word known there opens listed, ?_, rest⟩
    simp only [StatementDecl.unplaced, Option.map_some, sameArgs, Ident.unplaced_eq.2 sameObject]
  · by_cases nextval : convention = .nextval
    · subst nextval
      obtain ⟨rfl, rfl, object, rfl⟩ := bare_of_wellFormed formed (.inr rfl)
      obtain rfl : args = none := formed.nextval rfl
      obtain ⟨keyword, m, word, named, rest⟩ := Laid.word laid
      obtain ⟨object', d, there, sameObject, rest⟩ := Laid.word rest
      have known : Convention.ofKeyword? keyword.name = some .nextval :=
        named ▸ ofKeyword?_keyword .nextval
      refine ⟨_, d, .nextval word known there, ?_, rest⟩
      simp only [StatementDecl.unplaced, Option.map_some, Ident.unplaced_eq.2 sameObject]
    · obtain ⟨sql, rfl⟩ := Option.isSome_iff_exists.1 (formed.sql.2 ⟨proc, nextval⟩)
      obtain rfl : object = none := by
        rw [← Option.not_isSome_iff_eq_none]
        exact mt formed.object.1 fun bare => bare.elim proc nextval
      rw [symbols_sql proc nextval, List.cons_append, List.append_assoc, List.append_assoc] at laid
      obtain ⟨keyword, m, word, named, rest⟩ := laid.word
      obtain ⟨target', n, at_, sameTarget, rest⟩ :=
        TargetAt.of_laid formed.row formed.value spellable rest
      have list (args : List Ident) (m : Cursor)
          (laid : Laid ((commas (names args) ++ [.sign ']']) ++ .block sql.text :: ss) m.rest) :
          ∃ args' d, Listed ']' Word m args' d ∧
            args'.map (·.unplaced) = args.map (·.unplaced) ∧
              Laid (.block sql.text :: ss) d.rest := by
        rw [List.append_assoc] at laid
        exact names_of_laid (by decide) laid
      obtain ⟨args', o, note, sameArgs, rest⟩ :=
        Announced.of_laid _ (by decide) (by simp) (fun args _ => list args) rest
      obtain ⟨sql', d, block, sameSql, rest⟩ := rest.block
      refine ⟨_, d, .sql word (named ▸ ofKeyword?_keyword _) proc nextval at_ note block, ?_, rest⟩
      simp only [StatementDecl.unplaced, sameTarget, sameArgs, Option.map_some, SqlText.unplaced,
        sameSql, Option.map_none]

theorem StatementsAt.of_laid {statements : List StatementDecl}
    (each : ∀ s ∈ statements, s.WellFormed ∧ s.target.Spellable)
    (laid : Laid (statements.flatMap (·.symbols) ++ .sign '\x7d' :: ss) c.rest) :
    ∃ statements' d, StatementsAt lines c statements' d ∧
      statements'.map (·.unplaced) = statements.map (·.unplaced) ∧ Laid ss d.rest := by
  induction statements generalizing c with
  | nil =>
      obtain ⟨d, closes, rest⟩ := Laid.sign laid
      exact ⟨[], d, .done closes, rfl, rest⟩
  | cons s statements ih =>
      rw [List.flatMap_cons, List.append_assoc] at laid
      obtain ⟨formed, spellable⟩ := each s (.head _)
      obtain ⟨s', m, first, same, rest⟩ := StatementAt.of_laid formed spellable laid
      obtain ⟨statements', d, more, others, rest⟩ :=
        ih (fun s member => each s (.tail _ member)) rest
      exact ⟨s' :: statements', d, .more first more, by rw [List.map_cons, same, others]; rfl, rest⟩

theorem MethodAt.of_laid {keyword : Ident} {m : MethodDecl} (formed : m.WellFormed)
    (spellable : m.Spellable)
    (laid : Laid (.word m.name.name :: .sign '(' :: (commas (m.params.map (·.symbols)) ++
      .sign ')' :: .sign '\x7b' :: (m.statements.flatMap (·.symbols) ++ .sign '\x7d' :: ss)))
      c.rest) :
    ∃ m' d, MethodAt lines keyword c m' d ∧ m'.unplaced = m.unplaced ∧ Laid ss d.rest := by
  obtain ⟨w, p, name, named, rest⟩ := laid.word
  obtain ⟨q, opens, rest⟩ := rest.sign
  have list : ∃ params r, Listed ')' (ParamAt lines) q params r ∧
      params.map (·.unplaced) = m.params.map (·.unplaced) ∧ Laid (.sign '\x7b' ::
        (m.statements.flatMap (·.symbols) ++ .sign '\x7d' :: ss)) r.rest := by
    refine Listed.of_laid _ (by decide) (fun p member c ss next laid => ?_)
      (fun p _ => ⟨_, _, rfl⟩) rest
    refine ParamAt.of_laid (spellable.params p member) (formed.known p member) ?_ ?_ laid
    all_goals
      rcases next with next | next <;> simp [next]
  obtain ⟨params, r, listed, sameParams, rest⟩ := list
  obtain ⟨s, begins, rest⟩ := rest.sign
  obtain ⟨statements, d, at_, sameStatements, rest⟩ := StatementsAt.of_laid
    (fun s member => ⟨formed.statements s member, spellable.targets s member⟩) rest
  refine ⟨⟨w, lines.line keyword.span.start, params, statements⟩, d,
    ⟨⟨p, q, r, s, name, opens, listed, begins, at_⟩, rfl, ?_⟩, ?_, rest⟩
  · have names := congrArg (List.map (·.name.name)) sameParams
    rw [List.map_map, List.map_map] at names
    have pairs := List.pairwise_map.2 formed.params
    refine (firstRepeated?_iff []).2 ⟨fun _ _ => List.not_mem_nil, ?_⟩
    exact List.pairwise_map.1 (names.symm ▸ pairs)
  · simp only [MethodDecl.unplaced, Ident.unplaced_eq.2 named, sameParams, sameStatements]

theorem DeclarationAt.of_laid {decl : Declaration} (formed : decl.Spellable)
    (other : ss.head? ≠ some (.sign '(')) (laid : Laid (decl.symbols ++ ss) c.rest) :
    ∃ decl' d, DeclarationAt lines c decl' d ∧ decl'.unplaced = decl.unplaced ∧
      Laid ss d.rest := by
  cases decl with
  | unit name =>
      obtain ⟨keyword, m, word, named, rest⟩ := Laid.word laid
      obtain ⟨w, d, there, same, rest⟩ := rest.word
      exact ⟨_, d, .unit word named there, congrArg Declaration.unit (Ident.unplaced_eq.2 same),
        rest⟩
  | row r =>
      obtain ⟨keyword, m, word, named, rest⟩ := Laid.word laid
      obtain ⟨r', d, there, same, rest⟩ := RowAt.of_laid formed.1 formed.2 other rest
      exact ⟨_, d, .row word named there, congrArg Declaration.row same, rest⟩
  | method m =>
      have laid : Laid (.word "fn" :: .word m.name.name :: .sign '(' ::
          (commas (m.params.map (·.symbols)) ++ .sign ')' :: .sign '\x7b' ::
            (m.statements.flatMap (·.symbols) ++ .sign '\x7d' :: ss))) c.rest := by
        simpa [Declaration.symbols, MethodDecl.symbols] using laid
      obtain ⟨keyword, _, word, named, rest⟩ := laid.word
      obtain ⟨m', d, there, same, rest⟩ := MethodAt.of_laid formed.1 formed.2 rest
      exact ⟨_, d, .method word named there, congrArg Declaration.method same, rest⟩

theorem DeclarationsAt.of_laid {decls : List Declaration}
    (each : ∀ decl ∈ decls, decl.Spellable)
    (laid : Laid (decls.flatMap (·.symbols)) c.rest) :
    ∃ decls' d, DeclarationsAt lines c decls' d ∧
      decls'.map (·.unplaced) = decls.map (·.unplaced) := by
  induction decls generalizing c with
  | nil =>
      refine ⟨[], c, .done ?_, rfl⟩
      generalize c.rest = text at laid
      cases laid with
      | nil => rfl
  | cons decl decls ih =>
      rw [List.flatMap_cons] at laid
      -- A bare row ends where the next declaration begins, which is no bracket.
      have other : (decls.flatMap (·.symbols)).head? ≠ some (.sign '(') := by
        cases decls with
        | nil => simp
        | cons next decls => cases next <;> simp [Declaration.symbols, RowDecl.symbols,
            MethodDecl.symbols]
      obtain ⟨decl', m, first, same, rest⟩ := DeclarationAt.of_laid (each decl (.head _)) other laid
      obtain ⟨decls', d, more, others⟩ := ih (fun decl member => each decl (.tail _ member)) rest
      exact ⟨decl' :: decls', d, .more first more, by rw [List.map_cons, same, others]; rfl⟩

end Scanner

theorem Declaration.unit?_unplaced (decl : Declaration) :
    decl.unplaced.unit? = decl.unit?.map (·.unplaced) := by
  cases decl <;> rfl

theorem Declaration.row?_unplaced (decl : Declaration) :
    decl.unplaced.row? = decl.row?.map (·.unplaced) := by
  cases decl <;> rfl

theorem Declaration.method?_unplaced (decl : Declaration) :
    decl.unplaced.method? = decl.method?.map (·.unplaced) := by
  cases decl <;> rfl

namespace SourceUnit

open Scanner

variable {unit other : SourceUnit} {decls decls' : List Declaration}

theorem declares_declarations (unit : SourceUnit) : unit.Declares unit.declarations := by
  have rows {α : Type} (f : Declaration → Option α) :
      (unit.rows.map Declaration.row).filterMap f = unit.rows.filterMap fun r => f (.row r) :=
    List.filterMap_map
  have methods {α : Type} (f : Declaration → Option α) :
      (unit.methods.map Declaration.method).filterMap f =
        unit.methods.filterMap fun m => f (.method m) :=
    List.filterMap_map
  constructor <;>
    simp [declarations, rows, methods, Declaration.unit?, Declaration.row?, Declaration.method?]

/-- Declarations like those of a unit are those of a unit like it. -/
theorem Declares.of_unplaced (declares : unit.Declares decls)
    (same : decls'.map (·.unplaced) = decls.map (·.unplaced)) (path source : String)
    (line : Ident → Nat) :
    ∃ name rows methods,
      let again : SourceUnit := ⟨path, source, name, line name, rows, methods⟩
      again.Declares decls' ∧ again.unplaced = { unit.unplaced with path, source } := by
  have parts {α : Type} {f : Declaration → Option α} {g : α → α}
      (commutes : ∀ decl, f decl.unplaced = (f decl).map g) :
      (decls'.filterMap f).map g = (decls.filterMap f).map g := by
    have mapped := congrArg (List.filterMap f) same
    simpa only [List.filterMap_map, Function.comp_def, commutes, List.map_filterMap] using mapped
  have name := parts Declaration.unit?_unplaced
  have rows := parts Declaration.row?_unplaced
  have methods := parts Declaration.method?_unplaced
  rw [declares.name] at name
  rw [declares.rows] at rows
  rw [declares.methods] at methods
  obtain ⟨w, named, sameName⟩ := List.map_eq_singleton_iff.1 name
  refine ⟨w, _, _, ⟨named, rfl, rfl⟩, ?_⟩
  simp only [unplaced, sameName, rows, methods]

theorem resolved_unplaced : unit.unplaced.Resolved ↔ unit.Resolved := by
  have rows : unit.unplaced.rows.Pairwise (fun r r' => r.name.name ≠ r'.name.name) ↔
      unit.rows.Pairwise fun r r' => r.name.name ≠ r'.name.name := List.pairwise_map
  have methods : unit.unplaced.methods.Pairwise (fun m m' => m.name.name ≠ m'.name.name) ↔
      unit.methods.Pairwise fun m m' => m.name.name ≠ m'.name.name := List.pairwise_map
  have target (t : Target) {f : Ident → Prop} (nameOnly : ∀ w, f w.unplaced ↔ f w) :
      (∀ name, t.unplaced = .row name → f name) ↔ ∀ name, t = .row name → f name := by
    cases t <;> simp [Target.unplaced, nameOnly]
  have declared (name : Ident) : (∃ r ∈ unit.unplaced.rows, r.name.name = name.name) ↔
      ∃ r ∈ unit.rows, r.name.name = name.name := by
    simp [unplaced, RowDecl.unplaced, Ident.unplaced]
  have targets : (∀ m ∈ unit.unplaced.methods, ∀ s ∈ m.statements, ∀ name,
      s.target = .row name → ∃ r ∈ unit.unplaced.rows, r.name.name = name.name) ↔
      ∀ m ∈ unit.methods, ∀ s ∈ m.statements, ∀ name,
        s.target = .row name → ∃ r ∈ unit.rows, r.name.name = name.name := by
    simp only [declared]
    refine List.forall_mem_map.trans (forall₂_congr fun m _ => ?_)
    refine List.forall_mem_map.trans (forall₂_congr fun s _ => ?_)
    exact target s.target fun _ => Iff.rfl
  exact ⟨fun ⟨r, m, t⟩ => ⟨rows.1 r, methods.1 m, targets.1 t⟩,
    fun ⟨r, m, t⟩ => ⟨rows.2 r, methods.2 m, targets.2 t⟩⟩

theorem Declares.spellable (declares : unit.Declares decls) (formed : unit.WellFormed)
    (spellable : unit.Spellable) : ∀ decl ∈ decls, decl.Spellable := by
  intro decl member
  cases decl with
  | unit => trivial
  | row r =>
      have among : r ∈ unit.rows := by
        rw [← declares.rows]
        exact List.mem_filterMap.2 ⟨_, member, rfl⟩
      exact ⟨formed.fields r among, spellable.fields r among⟩
  | method m =>
      have among : m ∈ unit.methods := by
        rw [← declares.methods]
        exact List.mem_filterMap.2 ⟨_, member, rfl⟩
      exact ⟨formed.each m among, spellable.methods m among⟩

/-- A unit is read from its symbols, in whatever order it is declared and whatever stands between
them. -/
theorem scan_of_laid (formed : unit.WellFormed) (spellable : unit.Spellable)
    (declares : unit.Declares decls) {lead text : Text} (trivia : Trivia lead text)
    (laid : Laid (decls.flatMap (·.symbols)) text) (path : String) :
    ∃ again, scan path (String.ofList (lead ++ text)) = .ok again ∧
      again.unplaced =
        { unit.unplaced with path, source := String.ofList (lead ++ text) } := by
  let lines := LineIndex.ofText (lead ++ text)
  have start : (Scanner.Cursor.mk 0 (lead ++ text)).skip =
      ⟨0 + Text.byteLength lead, text⟩ := trivia.skips laid.settled 0
  have found : ∃ decls' d, DeclarationsAt lines ⟨0 + Text.byteLength lead, text⟩ decls' d ∧
      decls'.map (·.unplaced) = decls.map (·.unplaced) :=
    DeclarationsAt.of_laid (declares.spellable formed spellable) laid
  obtain ⟨decls', d, at_, same⟩ := found
  obtain ⟨name, rows, methods, declares', alike⟩ := declares.of_unplaced same path
    (String.ofList (lead ++ text)) fun name => lines.line name.span.start
  have resolved : Resolved { unit.unplaced with path, source := String.ofList (lead ++ text) } := by
    obtain ⟨rows, methods, targets⟩ := resolved_unplaced.2 formed.toResolved
    exact ⟨rows, methods, targets⟩
  rw [← alike] at resolved
  refine ⟨_, scan_iff.2 ⟨⟨decls', d, ?_, declares'⟩, resolved_unplaced.1 resolved, rfl, rfl, ?_⟩,
    alike⟩
  · rw [String.toList_ofList, start]
    exact at_
  · rw [String.toList_ofList]

/-- Every unit can be written, and however it is, it is read again. -/
theorem scan_laid (formed : unit.WellFormed) (spellable : unit.Spellable) :
    (∃ text, Laid unit.symbols text) ∧
      ∀ path lead text, Trivia lead text → Laid unit.symbols text →
        ∃ again, scan path (String.ofList (lead ++ text)) = .ok again ∧
          again.unplaced =
            { unit.unplaced with path, source := String.ofList (lead ++ text) } :=
  ⟨exists_laid.2 spellable.symbols, fun path _ _ trivia laid =>
    scan_of_laid formed spellable unit.declares_declarations trivia laid path⟩

theorem scan_laid_method :
    let unit : SourceUnit := ⟨"", "", ⟨"U", .point 0⟩, 0, [],
      [⟨⟨"m", .point 0⟩, 0, [⟨⟨"p", .point 0⟩, 0, none, some (.text "it's")⟩],
        [⟨.update, 0, .none, none, some ⟨"SELECT '\x7d'", 0⟩, none⟩]⟩]⟩
    let source := "// first\nunit U fn m(p='it''s')\x7bupdate\x7bSELECT '\x7d' \x7d\x7d"
    ∃ again, scan "u" source = .ok again ∧
      again.unplaced = { unit.unplaced with path := "u", source } := by
  intro unit source
  have formed : unit.WellFormed := by
    refine ⟨⟨.nil, List.pairwise_singleton _ _, by simp [unit]⟩, by simp [unit], fun m member => ?_⟩
    obtain rfl := List.mem_singleton.1 member
    refine ⟨List.pairwise_singleton _ _, by simp, fun s member => ?_⟩
    obtain rfl := List.mem_singleton.1 member
    constructor <;> simp [Convention.isRow, Convention.isSingleColumn]
  have statement : IsStatement "SELECT '\x7d'" := by
    constructor <;> decide +kernel
  have blank : Text.isBlank ' ' = true := by decide
  have written : Laid unit.symbols _ :=
    .spaced blank (.word (by decide +kernel)) <| .spaced blank (.word (by decide +kernel)) <|
    .spaced blank (.word (by decide +kernel)) <| .tight (.word (by decide +kernel)) (by decide) <|
    .tight (.sign (by decide)) (by decide) <| .tight (.word (by decide +kernel)) (by decide) <|
    .tight (.sign (by decide)) (by decide) <| .tight .quoted (by decide) <|
    .tight (.sign (by decide)) (by decide) <| .tight (.sign (by decide)) (by decide +kernel) <|
    .tight (.word (by decide +kernel)) (by decide) <|
    .tight (.block statement (List.forall_mem_nil _) (List.forall_mem_singleton.2 blank))
      (by decide) <|
    .tight (.sign (by decide)) (by decide) .nil
  obtain ⟨text, laid, whole⟩ : ∃ text, Laid unit.symbols text ∧
      String.ofList ("// first\n".toList ++ text) = source := ⟨_, written, by decide +kernel⟩
  have spellable : unit.Spellable := by
    refine ⟨by simp [unit], fun m member => ?_, exists_laid.1 ⟨_, laid⟩⟩
    obtain rfl := List.mem_singleton.1 member
    refine ⟨fun p member => ?_, fun s member => ?_⟩
    · obtain rfl := List.mem_singleton.1 member
      exact ⟨by simp, by simp⟩
    · obtain rfl := List.mem_singleton.1 member
      simp [Target.Spellable]
  have trivia (rest : Text) : Trivia "// first\n".toList rest :=
    .comment (by decide +kernel : '\n' ∉ " first".toList) .none
  rw [← whole]
  exact (scan_laid formed spellable).2 "u" _ text (trivia text) laid

end SourceUnit

end SqlUnits
