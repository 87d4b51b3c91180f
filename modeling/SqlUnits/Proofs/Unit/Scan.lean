import SqlUnits.Proofs.Unit.Grammar
/-!
The grammar of statements, methods and whole units. A scan accepts exactly the texts that the
grammar has, and yields the unit that is written there.
-/

namespace SqlUnits.Scanner

variable {c d : Cursor} {lines : LineIndex}

inductive StatementAt (lines : LineIndex) (c : Cursor) : StatementDecl → Cursor → Prop
  | proc {keyword object : Ident} {args : List Ident} {m n o d : Cursor} :
      Word c keyword m → Convention.ofKeyword? keyword.name = some .proc → Word m object n →
      Sign '(' n o → Listed ')' Word o args d →
      StatementAt lines c
        ⟨.proc, lines.line keyword.span.start, .none, some args, none, some object⟩ d
  | nextval {keyword object : Ident} {m d : Cursor} :
      Word c keyword m → Convention.ofKeyword? keyword.name = some .nextval → Word m object d →
      StatementAt lines c
        ⟨.nextval, lines.line keyword.span.start, .none, none, none, some object⟩ d
  | sql {keyword : Ident} {convention : Convention} {target : Target}
      {args : Option (List Ident)} {sql : SqlText} {m n o d : Cursor} :
      Word c keyword m → Convention.ofKeyword? keyword.name = some convention →
      convention ≠ .proc → convention ≠ .nextval → TargetAt convention m target n →
      Announced '[' (Listed ']' Word) n args o → SqlAt o sql d →
      StatementAt lines c
        ⟨convention, lines.line keyword.span.start, target, args, some sql, none⟩ d

theorem reaches_idents (close : Char) (what : String) (other : close ≠ ',') (c : Cursor)
    (names : List Ident) (d : Cursor) :
    Reaches (list close (ident what)) c names d ↔ Listed close Word c.skip names d :=
  reaches_list other (fun _ _ _ => reaches_ident) fun _ _ _ word => word.shorter.le

theorem TargetAt.ends {convention : Convention} {t : Target} (settled : c.skip = c)
    (at_ : TargetAt convention c t d) : d.skip = d := by
  cases at_ with
  | row _ word | discovered _ word _ | value _ word _ _ => exact word.ends
  | none => exact settled

theorem StatementAt.ends {s : StatementDecl} (at_ : StatementAt lines c s d) : d.skip = d := by
  cases at_ with
  | proc _ _ _ _ args => exact args.ends
  | nextval _ _ object => exact object.ends
  | sql _ _ _ _ _ _ block => exact block.ends

theorem TargetAt.shrinks {convention : Convention} {t : Target}
    (at_ : TargetAt convention c t d) : d.rest.length ≤ c.rest.length := by
  cases at_ with
  | row _ word | discovered _ word _ | value _ word _ _ => exact word.shorter.le
  | none => exact le_rfl

theorem StatementAt.shorter {s : StatementDecl} (at_ : StatementAt lines c s d) :
    d.rest.length < c.rest.length := by
  have words (c : Cursor) (w : Ident) (d : Cursor) (word : Word c w d) := word.shorter.le
  cases at_ with
  | proc keyword _ object opens args =>
      have last := args.shrinks words
      have object := object.shorter
      have opens := opens.shorter
      have first := keyword.shorter
      omega
  | nextval keyword _ object => exact object.shorter.trans keyword.shorter
  | sql keyword _ _ _ target args block =>
      have args := args.shrinks fun _ _ _ listed => listed.shrinks words
      have target := target.shrinks
      have block := block.shorter
      have first := keyword.shorter
      omega

theorem lenient_idents (close : Char) (what : String) (other : close ≠ ',') :
    Lenient (list close (ident what)) :=
  lenient_of_reaches (reaches_idents close what other)

theorem reaches_proc {line : Nat} {s : StatementDecl} :
    Reaches (do
        let object ← ident "a procedure name"
        expect '('
        let args ← list ')' (ident "an argument name")
        pure (⟨.proc, line, .none, some args, none, some object⟩ : StatementDecl)) c s d ↔
      ∃ object args m n, Word c.skip object m ∧ Sign '(' m n ∧ Listed ')' Word n args d ∧
        s = ⟨.proc, line, .none, some args, none, some object⟩ := by
  have last (object : Ident) := (lenient_idents ')' "an argument name" (by decide)).bind
    fun args => .pure (⟨.proc, line, .none, some args, none, some object⟩ : StatementDecl)
  rw [reaches_bind fun object => (lenient_expect '(').bind fun _ => last object]
  simp only [reaches_ident, reaches_bind fun _ => last _, reaches_expect, reaches_bind_pure,
    reaches_idents ')' _ (by decide)]
  constructor
  · rintro ⟨object, m, word, _, n, opens, args, listed, rfl⟩
    rw [word.ends] at opens
    rw [opens.ends] at listed
    exact ⟨object, args, m, n, word, opens, listed, rfl⟩
  · rintro ⟨object, args, m, n, word, opens, listed, rfl⟩
    exact ⟨object, m, word, ⟨⟩, n, word.ends.symm ▸ opens, args, opens.ends.symm ▸ listed, rfl⟩

theorem reaches_embedded (line : Nat) {convention : Convention} {s : StatementDecl} :
    Reaches (target convention >>= fun target => eat '[' >>= fun b =>
        if b = true then
          some <$> list ']' (ident "an argument name") >>= fun args => sqlBlock >>= fun sql =>
            pure (⟨convention, line, target, args, some sql, none⟩ : StatementDecl)
        else
          pure none >>= fun args => sqlBlock >>= fun sql =>
            pure (⟨convention, line, target, args, some sql, none⟩ : StatementDecl)) c s d ↔
      ∃ target args sql m n, TargetAt convention c.skip target m ∧
        Announced '[' (Listed ']' Word) m args n ∧ SqlAt n sql d ∧
        s = ⟨convention, line, target, args, some sql, none⟩ := by
  have last (target : Target) (args : Option (List Ident)) := lenient_sqlBlock.bind fun sql =>
    .pure (⟨convention, line, target, args, some sql, none⟩ : StatementDecl)
  have listed := reaches_idents ']' "an argument name" (by decide)
  rw [reaches_bind fun target => lenient_announced '[' listed (last target)]
  simp only [reaches_target, reaches_announced listed (last _), reaches_bind_pure,
    reaches_sqlBlock]
  constructor
  · rintro ⟨target, m, at_, args, n, note, sql, block, rfl⟩
    rw [at_.ends c.skip_skip] at note
    rw [note.ends (fun _ _ _ listed => listed.ends) (at_.ends c.skip_skip)] at block
    exact ⟨target, args, sql, m, n, at_, note, block, rfl⟩
  · rintro ⟨target, args, sql, m, n, at_, note, block, rfl⟩
    have there := note.ends (fun _ _ _ listed => listed.ends) (at_.ends c.skip_skip)
    exact ⟨target, m, at_, args, n, (at_.ends c.skip_skip).symm ▸ note, sql,
      there.symm ▸ block, rfl⟩

theorem reaches_statement (lines : LineIndex) (c : Cursor) (s : StatementDecl) (d : Cursor) :
    Reaches (statement lines) c s d ↔ StatementAt lines c.skip s d := by
  unfold statement
  dsimp only
  rw [reaches_bind fun keyword => by
    split
    · exact .failAt _ _
    · exact fun c s d => by rw [reaches_proc, reaches_proc, c.skip_skip]
    · exact (lenient_ident _).bind fun _ => .pure _
    · exact fun c s d => by rw [reaches_embedded, reaches_embedded, c.skip_skip]]
  constructor
  · rintro ⟨keyword, m, read, rest⟩
    have word := reaches_ident.1 read
    split at rest
    · exact absurd rest not_reaches_failAt
    · rename_i name
      obtain ⟨object, args, n, o, there, opens, listed, rfl⟩ := reaches_proc.1 rest
      rw [word.ends] at there
      exact .proc word name there opens listed
    · rename_i name
      obtain ⟨object, there, rfl⟩ := reaches_bind_pure.1 rest
      have there := reaches_ident.1 there
      rw [word.ends] at there
      exact .nextval word name there
    · rename_i convention noProc noNextval name
      obtain ⟨target, args, sql, n, o, at_, note, block, rfl⟩ := (reaches_embedded _).1 rest
      rw [word.ends] at at_
      exact .sql word name noProc noNextval at_ note block
  · intro at_
    cases at_ with
    | @proc keyword object args m n o _ word name there opens listed =>
        refine ⟨keyword, m, reaches_ident.2 word, ?_⟩
        rw [name]
        rw [← word.ends] at there
        exact reaches_proc.2 ⟨object, args, n, o, there, opens, listed, rfl⟩
    | @nextval keyword object m _ word name there =>
        refine ⟨keyword, m, reaches_ident.2 word, ?_⟩
        rw [name]
        rw [← word.ends] at there
        exact reaches_bind_pure.2 ⟨object, reaches_ident.2 there, rfl⟩
    | @sql keyword convention target args sql m n o _ word name noProc noNextval at_ note block =>
        refine ⟨keyword, m, reaches_ident.2 word, ?_⟩
        rw [← word.ends] at at_
        have rest := (reaches_embedded (lines.line keyword.span.start)).2
          ⟨target, args, sql, n, o, at_, note, block, rfl⟩
        rw [name]
        split
        · rename_i same
          cases same
        · rename_i same
          exact absurd (Option.some.inj same) noProc
        · rename_i same
          exact absurd (Option.some.inj same) noNextval
        · rename_i same
          cases same
          exact rest

/-- Statements up to the closing brace. -/
inductive StatementsAt (lines : LineIndex) : Cursor → List StatementDecl → Cursor → Prop
  | done {c d : Cursor} : Sign '\x7d' c d → StatementsAt lines c [] d
  | more {c m d : Cursor} {s : StatementDecl} {rest : List StatementDecl} :
      StatementAt lines c s m → StatementsAt lines m rest d → StatementsAt lines c (s :: rest) d

theorem StatementAt.head {s : StatementDecl} (at_ : StatementAt lines c s d) :
    ∃ x, c.rest.head? = some x ∧ Text.isIdentChar x = true := by
  cases at_ with
  | proc word _ _ _ _ | nextval word _ _ | sql word _ _ _ _ _ _ =>
      obtain ⟨x, ahead, letter, _⟩ := word.head
      exact ⟨x, ahead, letter⟩

theorem StatementsAt.count {ss : List StatementDecl} (at_ : StatementsAt lines c ss d) :
    ss.length + d.rest.length < c.rest.length := by
  induction at_ with
  | done closes => simpa using closes.shorter
  | more first _ ih =>
      have shorter := first.shorter
      rw [List.length_cons]
      omega

theorem StatementsAt.ends {ss : List StatementDecl} (at_ : StatementsAt lines c ss d) :
    d.skip = d := by
  induction at_ with
  | done closes => exact closes.ends
  | more _ _ ih => exact ih

theorem lenient_peek : Lenient peek :=
  .ofSkip fun c => by rw [peek_eq, peek_eq, c.skip_skip]

theorem reaches_peek {next : Option Char} :
    Reaches peek c next d ↔ next = c.skip.rest.head? ∧ d = c.skip := by
  unfold Reaches
  rw [peek_eq]
  constructor
  · rintro ⟨e, same, rfl⟩
    cases same
    exact ⟨rfl, c.skip_skip⟩
  · rintro ⟨rfl, rfl⟩
    exact ⟨_, rfl, c.skip_skip⟩

theorem lenient_statementsUpTo (lines : LineIndex) (n : Nat) :
    Lenient (statementsUpTo lines n) := by
  induction n with
  | zero => exact fun _ _ _ => by constructor <;> rintro ⟨_, fails, _⟩ <;> cases fails
  | succ n ih =>
      refine lenient_eat_ite _ (.pure _) (lenient_peek.bind fun _ => .ite (lenient_unexpected _) ?_)
      exact (lenient_of_reaches (reaches_statement lines)).bind fun _ => ih.bind fun _ => .pure _

theorem reaches_statementsUpTo (lines : LineIndex) (n : Nat) (c : Cursor)
    (ss : List StatementDecl) (d : Cursor) :
    Reaches (statementsUpTo lines n) c ss d ↔ StatementsAt lines c.skip ss d ∧ ss.length < n := by
  induction n generalizing c ss d with
  | zero =>
      refine iff_of_false (by rintro ⟨_, fails, _⟩; cases fails) ?_
      rintro ⟨_, few⟩
      exact absurd few (Nat.not_lt_zero _)
  | succ n ih =>
      have last (first : StatementDecl) := (lenient_statementsUpTo lines n).bind fun more =>
        .pure (first :: more)
      have read := (lenient_of_reaches (reaches_statement lines)).bind last
      unfold statementsUpTo
      rw [reaches_eat_ite (.pure _) (lenient_peek.bind fun _ => .ite (lenient_unexpected _) read),
        reaches_bind fun _ => .ite (lenient_unexpected _) read]
      simp only [reaches_pure, reaches_peek, reaches_ite, not_reaches_unexpected,
        reaches_bind last, reaches_statement, reaches_bind_pure, ih]
      constructor
      · rintro (⟨m, closes, rfl, rfl⟩ | ⟨open_, _, _, ⟨rfl, rfl⟩, ⟨_, fails⟩ | ⟨some, rest⟩⟩)
        · rw [closes.ends]
          exact ⟨.done closes, Nat.succ_pos n⟩
        · exact fails.elim
        · obtain ⟨s, m, first, ss, ⟨rest, few⟩, rfl⟩ := rest
          rw [c.skip_skip] at first
          rw [first.ends] at rest
          exact ⟨.more first rest, Nat.succ_lt_succ few⟩
      · rintro ⟨at_, few⟩
        cases at_ with
        | done closes => exact .inl ⟨d, closes, rfl, closes.ends.symm⟩
        | more first rest =>
            obtain ⟨x, ahead, letter⟩ := first.head
            refine .inr ⟨?_, _, _, ⟨rfl, rfl⟩, .inr ⟨by simp [ahead], ?_⟩⟩
            · rw [ahead]
              rintro same
              cases same
              exact absurd letter (by decide)
            · rw [← first.ends] at rest
              exact ⟨_, _, c.skip_skip.symm ▸ first, _, ⟨rest, Nat.lt_of_succ_lt_succ few⟩, rfl⟩

theorem Cursor.skip_length (c : Cursor) : c.skip.rest.length ≤ c.rest.length :=
  skipTrivia_shorter false c.offset c.rest

structure MethodAt (lines : LineIndex) (keyword : Ident) (c : Cursor) (m : MethodDecl)
    (d : Cursor) : Prop where
  parts : ∃ p q r s, Word c m.name p ∧ Sign '(' p q ∧ Listed ')' (ParamAt lines) q m.params r ∧
    Sign '\x7b' r s ∧ StatementsAt lines s m.statements d
  line : m.line = lines.line keyword.span.start
  distinct : firstRepeated? (·.name.name) [] m.params = none

theorem MethodAt.ends {keyword : Ident} {m : MethodDecl} (at_ : MethodAt lines keyword c m d) :
    d.skip = d := by
  obtain ⟨⟨_, _, _, _, _, _, _, _, statements⟩, _, _⟩ := at_
  exact statements.ends

theorem MethodAt.shorter {keyword : Ident} {m : MethodDecl}
    (at_ : MethodAt lines keyword c m d) : d.rest.length < c.rest.length := by
  obtain ⟨⟨p, q, r, s, name, opens, params, begins, statements⟩, _, _⟩ := at_
  have params := params.shrinks fun _ _ _ at_ => at_.shorter.le
  have name := name.shorter
  have opens := opens.shorter
  have begins := begins.shorter
  have statements := statements.count
  omega

theorem reaches_params (lines : LineIndex) (c : Cursor) (ps : List ParamDecl) (d : Cursor) :
    Reaches (list ')' (param lines)) c ps d ↔ Listed ')' (ParamAt lines) c.skip ps d :=
  reaches_list (by decide) (reaches_param lines) fun _ _ _ at_ => at_.shorter.le

/-- The body of a method, behind its parameters. -/
theorem reaches_body {keyword name : Ident} {params : List ParamDecl} {m : MethodDecl} :
    Reaches (do
        expect '\x7b'
        let cursor ← get
        let statements ← statementsUpTo lines (cursor.rest.length + 1)
        pure (⟨name, lines.line keyword.span.start, params, statements⟩ : MethodDecl)) c m d ↔
      ∃ n ss, Sign '\x7b' c.skip n ∧ StatementsAt lines n ss d ∧
        m = ⟨name, lines.line keyword.span.start, params, ss⟩ := by
  have read (c : Cursor) (m : MethodDecl) (d : Cursor) :
      Reaches (do
        let cursor ← get
        let statements ← statementsUpTo lines (cursor.rest.length + 1)
        pure (⟨name, lines.line keyword.span.start, params, statements⟩ : MethodDecl)) c m d ↔
      ∃ ss, StatementsAt lines c.skip ss d ∧
        m = ⟨name, lines.line keyword.span.start, params, ss⟩ := by
    rw [reaches_get, reaches_bind_pure]
    simp only [reaches_statementsUpTo]
    refine exists_congr fun ss => and_congr_left fun _ => and_iff_left_of_imp fun at_ => ?_
    have count := at_.count
    have shorter := c.skip_length
    omega
  rw [reaches_bind fun _ c m d => by rw [read, read, c.skip_skip]]
  simp only [reaches_expect, read]
  constructor
  · rintro ⟨_, n, begins, ss, at_, rfl⟩
    exact ⟨n, ss, begins, begins.ends ▸ at_, rfl⟩
  · rintro ⟨n, ss, begins, at_, rfl⟩
    exact ⟨⟨⟩, n, begins, ss, begins.ends.symm ▸ at_, rfl⟩

theorem reaches_method (lines : LineIndex) (keyword : Ident) (c : Cursor) (m : MethodDecl)
    (d : Cursor) :
    Reaches (method lines keyword) c m d ↔ MethodAt lines keyword c.skip m d := by
  obtain ⟨next, whole, spec⟩ : ∃ next : Ident → List ParamDecl → Scan MethodDecl,
      method lines keyword = (ident "a method name" >>= fun name => expect '(' >>= fun _ =>
        list ')' (param lines) >>= fun params => next name params) ∧
      ∀ name params c m d, Reaches (next name params) c m d ↔
        firstRepeated? (·.name.name) [] params = none ∧
          ∃ n ss, Sign '\x7b' c.skip n ∧ StatementsAt lines n ss d ∧
            m = ⟨name, lines.line keyword.span.start, params, ss⟩ := by
    refine ⟨_, rfl, fun name params c m d => ?_⟩
    split
    · rename_i again repeated
      simp [repeated, not_reaches_failAt]
    · rename_i distinct
      rw [reaches_body]
      simp [distinct]
  have body (name : Ident) (params : List ParamDecl) : Lenient (next name params) :=
    fun c m d => by rw [spec, spec, c.skip_skip]
  have listed (name : Ident) := (lenient_of_reaches (reaches_params lines)).bind (body name)
  rw [whole, reaches_bind fun name => (lenient_expect '(').bind fun _ => listed name]
  simp only [reaches_ident, reaches_bind fun _ => listed _, reaches_expect,
    reaches_bind (body _), reaches_params, spec]
  constructor
  · rintro ⟨name, p, word, _, q, opens, params, r, listed, distinct, s, ss, begins, at_, rfl⟩
    rw [word.ends] at opens
    rw [opens.ends] at listed
    rw [listed.ends] at begins
    exact ⟨⟨p, q, r, s, word, opens, listed, begins, at_⟩, rfl, distinct⟩
  · rintro ⟨⟨p, q, r, s, word, opens, listed, begins, at_⟩, line, distinct⟩
    refine ⟨m.name, p, word, ⟨⟩, q, word.ends.symm ▸ opens, m.params, r,
      opens.ends.symm ▸ listed, distinct, s, m.statements, listed.ends.symm ▸ begins, at_, ?_⟩
    rw [← line]

/-- A declaration of a unit, and what has been read of the unit before and after it. -/
inductive ItemAt (lines : LineIndex) (draft : Draft) (c : Cursor) : Draft → Cursor → Prop
  | unit {keyword name : Ident} {m d : Cursor} : Word c keyword m → keyword.name = "unit" →
      draft.name = none → Word m name d →
      ItemAt lines draft c ⟨some name, draft.rows, draft.methods⟩ d
  | row {keyword : Ident} {r : RowDecl} {m d : Cursor} : Word c keyword m →
      keyword.name = "row" → RowAt lines keyword m r d →
      draft.rows.any (·.name.name == r.name.name) = false →
      ItemAt lines draft c ⟨draft.name, draft.rows ++ [r], draft.methods⟩ d
  | method {keyword : Ident} {method : MethodDecl} {m d : Cursor} : Word c keyword m →
      keyword.name = "fn" → MethodAt lines keyword m method d →
      draft.methods.any (·.name.name == method.name.name) = false →
      ItemAt lines draft c ⟨draft.name, draft.rows, draft.methods ++ [method]⟩ d

theorem ItemAt.ends {draft next : Draft} (at_ : ItemAt lines draft c next d) : d.skip = d := by
  cases at_ with
  | unit _ _ _ name => exact name.ends
  | row _ _ row _ => exact row.ends
  | method _ _ method _ => exact method.ends

theorem ItemAt.shorter {draft next : Draft} (at_ : ItemAt lines draft c next d) :
    d.rest.length < c.rest.length := by
  cases at_ with
  | unit word _ _ name => exact name.shorter.trans word.shorter
  | row word _ row _ => exact row.shorter.trans word.shorter
  | method word _ method _ => exact method.shorter.trans word.shorter

theorem reaches_item (lines : LineIndex) (draft : Draft) (c : Cursor) (next : Draft)
    (d : Cursor) : Reaches (item lines draft) c next d ↔ ItemAt lines draft c.skip next d := by
  obtain ⟨rest, whole, spec⟩ : ∃ rest : Ident → Scan Draft,
      item lines draft = (ident "\x60unit\x60, \x60row\x60 or \x60fn\x60" >>= rest) ∧
      ∀ keyword c next d, Reaches (rest keyword) c next d ↔
        (keyword.name = "unit" ∧ draft.name = none ∧ ∃ name, Word c.skip name d ∧
          next = ⟨some name, draft.rows, draft.methods⟩) ∨
        (keyword.name = "row" ∧ ∃ r, RowAt lines keyword c.skip r d ∧
          draft.rows.any (·.name.name == r.name.name) = false ∧
          next = ⟨draft.name, draft.rows ++ [r], draft.methods⟩) ∨
        (keyword.name = "fn" ∧ ∃ m, MethodAt lines keyword c.skip m d ∧
          draft.methods.any (·.name.name == m.name.name) = false ∧
          next = ⟨draft.name, draft.rows, draft.methods ++ [m]⟩) := by
    refine ⟨_, rfl, fun keyword c next d => ?_⟩
    split
    · rename_i name
      simp only [name, reaches_ite, not_reaches_failAt, reaches_bind_pure, reaches_ident]
      simp
    · rename_i name
      rw [reaches_bind fun r => .ite (.failAt _ _) (.pure _)]
      simp only [name, reaches_row, reaches_ite, not_reaches_failAt, reaches_pure]
      constructor
      · rintro ⟨r, m, there, ⟨_, fails⟩ | ⟨fresh, rfl, rfl⟩⟩
        · exact fails.elim
        · rw [there.ends]
          exact .inr (.inl ⟨⟨⟩, r, there, eq_false_of_ne_true fresh, rfl⟩)
      · rintro (⟨other, _⟩ | ⟨_, r, there, fresh, rfl⟩ | ⟨other, _⟩)
        · exact absurd other (by decide)
        · exact ⟨r, d, there, .inr ⟨ne_true_of_eq_false fresh, rfl, there.ends.symm⟩⟩
        · exact absurd other (by decide)
    · rename_i name
      rw [reaches_bind fun m => .ite (.failAt _ _) (.pure _)]
      simp only [name, reaches_method, reaches_ite, not_reaches_failAt, reaches_pure]
      constructor
      · rintro ⟨method, m, there, ⟨_, fails⟩ | ⟨fresh, rfl, rfl⟩⟩
        · exact fails.elim
        · rw [there.ends]
          exact .inr (.inr ⟨⟨⟩, method, there, eq_false_of_ne_true fresh, rfl⟩)
      · rintro (⟨other, _⟩ | ⟨other, _⟩ | ⟨_, method, there, fresh, rfl⟩)
        · exact absurd other (by decide)
        · exact absurd other (by decide)
        · exact ⟨method, d, there, .inr ⟨ne_true_of_eq_false fresh, rfl, there.ends.symm⟩⟩
    · rename_i noUnit noRow noFn
      refine iff_of_false not_reaches_failAt ?_
      rintro (⟨name, _⟩ | ⟨name, _⟩ | ⟨name, _⟩)
      · exact noUnit name
      · exact noRow name
      · exact noFn name
  have lenient (keyword : Ident) : Lenient (rest keyword) :=
    fun c m d => by rw [spec, spec, c.skip_skip]
  rw [whole, reaches_bind lenient]
  simp only [reaches_ident, spec]
  constructor
  · rintro ⟨keyword, m, word, rest⟩
    rw [word.ends] at rest
    rcases rest with ⟨name, fresh, _, there, rfl⟩ | ⟨name, _, there, fresh, rfl⟩ |
      ⟨name, _, there, fresh, rfl⟩
    · exact .unit word name fresh there
    · exact .row word name there fresh
    · exact .method word name there fresh
  · intro at_
    cases at_ with
    | unit word name fresh there =>
        exact ⟨_, _, word, .inl ⟨name, fresh, _, word.ends.symm ▸ there, rfl⟩⟩
    | row word name there fresh =>
        exact ⟨_, _, word, .inr (.inl ⟨name, _, word.ends.symm ▸ there, fresh, rfl⟩)⟩
    | method word name there fresh =>
        exact ⟨_, _, word, .inr (.inr ⟨name, _, word.ends.symm ▸ there, fresh, rfl⟩)⟩

/-- Declarations up to the end of the text. -/
inductive ItemsAt (lines : LineIndex) : Draft → Cursor → Draft → Cursor → Prop
  | done {draft : Draft} {c : Cursor} : c.rest = [] → ItemsAt lines draft c draft c
  | more {draft next last : Draft} {c m d : Cursor} :
      ItemAt lines draft c next m → ItemsAt lines next m last d → ItemsAt lines draft c last d

theorem ItemAt.head {draft next : Draft} (at_ : ItemAt lines draft c next d) :
    ∃ x, c.rest.head? = some x ∧ Text.isIdentChar x = true := by
  cases at_ with
  | unit word _ _ _ | row word _ _ _ | method word _ _ _ =>
      obtain ⟨x, ahead, letter, _⟩ := word.head
      exact ⟨x, ahead, letter⟩

theorem lenient_itemsFrom (lines : LineIndex) (n : Nat) (draft : Draft) :
    Lenient (itemsFrom lines draft n) := by
  induction n generalizing draft with
  | zero => exact fun _ _ _ => by constructor <;> rintro ⟨_, fails, _⟩ <;> cases fails
  | succ n ih =>
      refine lenient_peek.bind fun _ => .ite (.pure _) ?_
      exact (lenient_of_reaches (reaches_item lines draft)).bind fun next => ih next

/-- One more than the length of the text ahead is fuel enough for the declarations there. -/
theorem reaches_itemsFrom (lines : LineIndex) (n : Nat) (draft : Draft) (c : Cursor)
    (last : Draft) (d : Cursor) (enough : c.skip.rest.length < n) :
    Reaches (itemsFrom lines draft n) c last d ↔ ItemsAt lines draft c.skip last d := by
  induction n generalizing draft c with
  | zero => exact absurd enough (Nat.not_lt_zero _)
  | succ n ih =>
      unfold itemsFrom
      rw [reaches_bind fun _ => .ite (.pure _) ((lenient_of_reaches (reaches_item lines draft)).bind
        fun next => lenient_itemsFrom lines n next)]
      simp only [reaches_peek, reaches_ite, reaches_pure,
        reaches_bind (lenient_itemsFrom lines n), reaches_item, Option.isNone_iff_eq_none]
      constructor
      · rintro ⟨_, _, ⟨rfl, rfl⟩, ⟨ended, rfl, rfl⟩ | ⟨_, next, m, first, rest⟩⟩
        · rw [List.head?_eq_none_iff] at ended
          rw [c.skip_skip]
          exact .done ended
        · rw [c.skip_skip] at first
          have shorter := first.shorter
          rw [ih next m (by rw [first.ends]; omega), first.ends] at rest
          exact .more first rest
      · intro at_
        refine ⟨_, _, ⟨rfl, rfl⟩, ?_⟩
        cases at_ with
        | done ended => exact .inl ⟨by simp [ended], rfl, c.skip_skip.symm⟩
        | @more _ next _ _ m _ first rest =>
            obtain ⟨x, ahead, _⟩ := first.head
            have shorter := first.shorter
            refine .inr ⟨by simp [ahead], next, m, c.skip_skip.symm ▸ first, ?_⟩
            rwa [ih next m (by rw [first.ends]; omega), first.ends]

theorem ItemsAt.ends {draft last : Draft} (settled : c.skip = c)
    (at_ : ItemsAt lines draft c last d) : d.skip = d := by
  induction at_ with
  | done => exact settled
  | more first _ ih => exact ih first.ends

theorem reaches_unit (lines : LineIndex) (c : Cursor) (name : Ident) (draft : Draft)
    (d : Cursor) :
    Reaches (unit lines) c (name, draft) d ↔
      ItemsAt lines ⟨none, [], []⟩ c.skip draft d ∧ draft.name = some name ∧
        undeclaredRow? draft = none := by
  obtain ⟨rest, whole, spec⟩ : ∃ rest : Draft → Scan (Ident × Draft),
      unit lines = (get >>= fun cursor =>
        itemsFrom lines ⟨none, [], []⟩ (cursor.rest.length + 1) >>= rest) ∧
      ∀ known c pair d, Reaches (rest known) c pair d ↔
        known.name = some pair.1 ∧ undeclaredRow? known = none ∧ pair.2 = known ∧ d = c.skip := by
    refine ⟨_, rfl, fun known c pair d => ?_⟩
    split
    · rename_i unnamed
      simp [unnamed, not_reaches_failAt]
    · rename_i named
      split
      · rename_i undeclared
        simp [undeclared, not_reaches_failAt]
      · rename_i declared
        simp [named, declared, reaches_pure, Prod.ext_iff, eq_comm, and_assoc]
  have lenient (known : Draft) : Lenient (rest known) :=
    fun c pair d => by rw [spec, spec, c.skip_skip]
  rw [whole, reaches_get, reaches_bind lenient]
  simp only [spec, reaches_itemsFrom lines _ _ c _ _ (Nat.lt_succ_of_le c.skip_length)]
  constructor
  · rintro ⟨_, m, at_, named, declared, rfl, rfl⟩
    rw [at_.ends c.skip_skip]
    exact ⟨at_, named, declared⟩
  · rintro ⟨at_, named, declared⟩
    exact ⟨draft, d, at_, named, declared, rfl, (at_.ends c.skip_skip).symm⟩

/-- Values are the targets of keywords that read single values. -/
def ReadsValue (s : StatementDecl) : Prop :=
  ∀ type span, s.target = .value type span → s.convention.isSingleColumn = true

theorem StatementAt.readsValue {s : StatementDecl} (at_ : StatementAt lines c s d) :
    ReadsValue s := by
  intro type span target
  cases at_ with
  | proc | nextval => cases target
  | sql _ _ _ _ there _ _ =>
      obtain rfl : _ = Target.value type span := target
      cases there with
      | discovered single _ _ | value single _ _ _ => exact single

/-- What a keyword returns is what its statement delivers into. -/
structure Targeted (s : StatementDecl) : Prop where
  row : s.convention.isRow = true → ∃ name, s.target = .row name
  value : s.convention.isSingleColumn = true → ∃ type span, s.target = .value type span

theorem StatementAt.targeted {s : StatementDecl} (at_ : StatementAt lines c s d) :
    Targeted s := by
  cases at_ with
  | proc | nextval => exact ⟨nofun, nofun⟩
  | @sql _ convention _ _ _ _ _ _ _ _ _ _ _ there _ _ =>
      have apart : convention.isRow = true → convention.isSingleColumn = true → False := by
        cases convention <;> simp [Convention.isRow, Convention.isSingleColumn]
      cases there with
      | row rows _ => exact ⟨fun _ => ⟨_, rfl⟩, fun single => (apart rows single).elim⟩
      | discovered single _ _ | value single _ _ _ =>
          exact ⟨fun rows => (apart rows single).elim, fun _ => ⟨_, _, rfl⟩⟩
      | none noRow noValue => exact ⟨by simp [noRow], by simp [noValue]⟩

theorem StatementsAt.each {ss : List StatementDecl} (at_ : StatementsAt lines c ss d) :
    ∀ s ∈ ss, ∃ m n, StatementAt lines m s n := by
  induction at_ with
  | done => exact fun _ member => absurd member List.not_mem_nil
  | more first _ ih => exact List.forall_mem_cons.2 ⟨⟨_, _, first⟩, ih⟩

/-- Every statement of a unit stands somewhere in its text. -/
theorem ItemsAt.each {draft last : Draft} (at_ : ItemsAt lines draft c last d)
    (before : ∀ m ∈ draft.methods, ∀ s ∈ m.statements, ∃ m n, StatementAt lines m s n) :
    ∀ m ∈ last.methods, ∀ s ∈ m.statements, ∃ m n, StatementAt lines m s n := by
  induction at_ with
  | done => exact before
  | more first _ ih =>
      refine ih ?_
      cases first with
      | unit | row => exact before
      | method _ _ there _ =>
          obtain ⟨⟨_, _, _, _, _, _, _, _, statements⟩, _, _⟩ := there
          intro m member
          rcases List.mem_append.1 member with member | member
          · exact before m member
          · rw [List.mem_singleton.1 member]
            exact statements.each

/-- The name of a unit is an identifier. -/
theorem ItemsAt.isName {draft last : Draft} (at_ : ItemsAt lines draft c last d)
    (before : ∀ name, draft.name = some name → IsName name.name.toList) :
    ∀ name, last.name = some name → IsName name.name.toList := by
  induction at_ with
  | done => exact before
  | more first _ ih =>
      refine ih ?_
      cases first with
      | unit _ _ _ word =>
          rintro _ ⟨⟩
          exact word.name
      | row | method => exact before

theorem undeclaredRow?_eq_none {draft : Draft} :
    undeclaredRow? draft = none ↔
      ∀ method ∈ draft.methods, ∀ s ∈ method.statements, ∀ name, s.target = .row name →
        draft.rows.any (·.name.name == name.name) = true := by
  unfold undeclaredRow?
  rw [List.findSome?_eq_none_iff]
  constructor
  · intro declared method member s inside name target
    have row := declared s (List.mem_flatMap.2 ⟨method, member, inside⟩)
    simpa [target] using row
  · intro declared s member
    obtain ⟨method, member, inside⟩ := List.mem_flatMap.1 member
    cases target : s.target with
    | row name => simpa [target] using declared method member s inside name target
    | none | value => rfl

end SqlUnits.Scanner

namespace SqlUnits.SourceUnit

open Scanner

/-- A text is a unit exactly if it consists of declarations, names itself in one of them, and its
statements populate declared rows only. -/
theorem scan_eq_ok {path source : String} {unit : SourceUnit} :
    scan path source = .ok unit ↔
      ∃ draft d name,
        ItemsAt (LineIndex.ofText source.toList) ⟨none, [], []⟩
          (Scanner.Cursor.mk 0 source.toList).skip draft d ∧
        draft.name = some name ∧ undeclaredRow? draft = none ∧
        unit = ⟨path, source, name, (LineIndex.ofText source.toList).line name.span.start,
          draft.rows, draft.methods⟩ := by
  have read (name : Ident) (draft : Draft) :=
    reaches_unit (LineIndex.ofText source.toList) ⟨0, source.toList⟩ name draft
  unfold scan
  constructor
  · intro scans
    dsimp only at scans
    split at scans
    · cases scans
    · rename_i name draft e reads
      cases scans
      obtain ⟨at_, named, declared⟩ := (read name draft e.skip).1 ⟨e, reads, rfl⟩
      exact ⟨draft, _, name, at_, named, declared, rfl⟩
  · rintro ⟨draft, d, name, at_, named, declared, rfl⟩
    obtain ⟨e, reads, _⟩ := (read name draft d).2 ⟨at_, named, declared⟩
    dsimp only
    rw [reads]

theorem scan_readsValue {path source : String} {unit : SourceUnit}
    (read : scan path source = .ok unit) :
    ∀ m ∈ unit.methods, ∀ s ∈ m.statements, ReadsValue s := by
  obtain ⟨_, _, _, at_, _, _, rfl⟩ := scan_eq_ok.1 read
  intro m member s inside
  obtain ⟨_, _, here⟩ := at_.each nofun m member s inside
  exact here.readsValue

theorem scan_targeted {path source : String} {unit : SourceUnit}
    (read : scan path source = .ok unit) :
    ∀ m ∈ unit.methods, ∀ s ∈ m.statements, Targeted s := by
  obtain ⟨_, _, _, at_, _, _, rfl⟩ := scan_eq_ok.1 read
  intro m member s inside
  obtain ⟨_, _, here⟩ := at_.each nofun m member s inside
  exact here.targeted

/-- The rows that statements populate are declared. -/
theorem scan_row? {path source : String} {unit : SourceUnit}
    (read : scan path source = .ok unit) {m : MethodDecl} (member : m ∈ unit.methods)
    {s : StatementDecl} (inside : s ∈ m.statements) {name : Ident} (target : s.target = .row name) :
    ∃ row, unit.row? name.name = some row := by
  obtain ⟨draft, _, _, _, _, declared, rfl⟩ := scan_eq_ok.1 read
  have known := undeclaredRow?_eq_none.1 declared m member s inside name target
  obtain ⟨row, among, same⟩ := List.any_eq_true.1 known
  exact Option.isSome_iff_exists.1 (List.find?_isSome.2 ⟨row, among, same⟩)

theorem scan_isName {path source : String} {unit : SourceUnit}
    (read : scan path source = .ok unit) : IsName unit.name.name.toList := by
  obtain ⟨_, _, name, at_, named, _, rfl⟩ := scan_eq_ok.1 read
  exact at_.isName nofun name named

/-- Rows of one name, qualified, are rows of units of one name. -/
theorem name_of_qualified {unit other : SourceUnit} (isName : IsName unit.name.name.toList)
    (isName' : IsName other.name.name.toList) {row row' : String}
    (same : unit.qualified row = other.qualified row') : unit.name.name = other.name.name := by
  have first {unit : SourceUnit} (isName : IsName unit.name.name.toList) (row : String) :
      (unit.qualified row).toList.takeWhile Text.isIdentChar = unit.name.name.toList := by
    unfold qualified
    rw [String.toList_append, String.toList_append, List.append_assoc]
    exact Text.takeWhile_run isName.all rfl
  rw [← String.toList_inj, ← first isName row, same, first isName' row']

theorem scan_source {path source : String} {unit : SourceUnit}
    (read : scan path source = .ok unit) : unit.source = source := by
  obtain ⟨_, _, _, _, _, _, rfl⟩ := scan_eq_ok.1 read
  rfl

theorem scan_path {path source : String} {unit : SourceUnit}
    (read : scan path source = .ok unit) : unit.path = path := by
  obtain ⟨_, _, _, _, _, _, rfl⟩ := scan_eq_ok.1 read
  rfl

end SqlUnits.SourceUnit
