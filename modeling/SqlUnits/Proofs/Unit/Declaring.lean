import SqlUnits.Proofs.Unit.Standing
/-!
Units as lists of declarations. A text is a unit exactly if it consists of declarations of which one
names the unit, no two rows or methods share a name, and statements populate declared rows only.
-/

namespace SqlUnits

/-- What a unit consists of. -/
inductive Declaration where
  | unit (name : Ident)
  | row (row : RowDecl)
  | method (method : MethodDecl)
deriving DecidableEq

namespace Declaration

def unit? : Declaration → Option Ident
  | unit name => some name
  | _ => none

def row? : Declaration → Option RowDecl
  | row r => some r
  | _ => none

def method? : Declaration → Option MethodDecl
  | method m => some m
  | _ => none

theorem unit?_eq_some {decl : Declaration} {name : Ident} :
    decl.unit? = some name ↔ .unit name = decl := by
  cases decl <;> simp [unit?, eq_comm]

theorem row?_eq_some {decl : Declaration} {r : RowDecl} : decl.row? = some r ↔ .row r = decl := by
  cases decl <;> simp [row?, eq_comm]

theorem method?_eq_some {decl : Declaration} {m : MethodDecl} :
    decl.method? = some m ↔ .method m = decl := by
  cases decl <;> simp [method?, eq_comm]

end Declaration

/-- A statement has what its keyword asks for, and nothing else. -/
structure StatementDecl.WellFormed (s : StatementDecl) : Prop where
  row : s.convention.isRow = true ↔ ∃ name, s.target = .row name
  value : s.convention.isSingleColumn = true ↔ ∃ type span, s.target = .value type span
  object : s.object.isSome = true ↔ s.convention = .proc ∨ s.convention = .nextval
  sql : s.sql.isSome = true ↔ s.convention ≠ .proc ∧ s.convention ≠ .nextval
  proc : s.convention = .proc → s.args.isSome = true
  nextval : s.convention = .nextval → s.args = none

structure MethodDecl.WellFormed (m : MethodDecl) : Prop where
  params : m.params.Pairwise fun p p' => p.name.name ≠ p'.name.name
  known : ∀ p ∈ m.params, p.type.isSome = true ∨ p.sample.isSome = true
  statements : ∀ s ∈ m.statements, s.WellFormed

namespace Scanner

inductive DeclarationAt (lines : LineIndex) (c : Cursor) : Declaration → Cursor → Prop
  | unit {keyword name : Ident} {m d : Cursor} : Word c keyword m → keyword.name = "unit" →
      Word m name d → DeclarationAt lines c (.unit name) d
  | row {keyword : Ident} {r : RowDecl} {m d : Cursor} : Word c keyword m →
      keyword.name = "row" → RowAt lines keyword m r d → DeclarationAt lines c (.row r) d
  | method {keyword : Ident} {method : MethodDecl} {m d : Cursor} : Word c keyword m →
      keyword.name = "fn" → MethodAt lines keyword m method d →
      DeclarationAt lines c (.method method) d

/-- Declarations up to the end of the text. -/
inductive DeclarationsAt (lines : LineIndex) : Cursor → List Declaration → Cursor → Prop
  | done {c : Cursor} : c.rest = [] → DeclarationsAt lines c [] c
  | more {c m d : Cursor} {first : Declaration} {rest : List Declaration} :
      DeclarationAt lines c first m → DeclarationsAt lines m rest d →
      DeclarationsAt lines c (first :: rest) d

variable {lines : LineIndex} {c d : Cursor} {draft next last : Draft}

/-- No two rows and no two methods of a draft share a name. -/
structure Draft.Distinct (draft : Draft) : Prop where
  rows : draft.rows.Pairwise fun r r' => r.name.name ≠ r'.name.name
  methods : draft.methods.Pairwise fun m m' => m.name.name ≠ m'.name.name

/-- What has been read of a unit once some declarations more are read. -/
structure Draft.Reads (draft : Draft) (decls : List Declaration) (last : Draft) : Prop where
  name : draft.name.toList ++ decls.filterMap (·.unit?) = last.name.toList
  rows : draft.rows ++ decls.filterMap (·.row?) = last.rows
  methods : draft.methods ++ decls.filterMap (·.method?) = last.methods

theorem Draft.Reads.refl (draft : Draft) : draft.Reads [] draft :=
  ⟨List.append_nil _, List.append_nil _, List.append_nil _⟩

theorem Draft.Reads.step {decl : Declaration} {decls : List Declaration}
    (first : draft.Reads [decl] next) :
    draft.Reads (decl :: decls) last ↔ next.Reads decls last := by
  have parts {α : Type} (f : Declaration → Option α) :
      (decl :: decls).filterMap f = [decl].filterMap f ++ decls.filterMap f := by
    rw [← List.filterMap_append, List.singleton_append]
  constructor
  · rintro ⟨name, rows, methods⟩
    rw [parts, ← List.append_assoc] at name rows methods
    rw [first.name] at name
    rw [first.rows] at rows
    rw [first.methods] at methods
    exact ⟨name, rows, methods⟩
  · rintro ⟨name, rows, methods⟩
    rw [← first.name, List.append_assoc, ← parts] at name
    rw [← first.rows, List.append_assoc, ← parts] at rows
    rw [← first.methods, List.append_assoc, ← parts] at methods
    exact ⟨name, rows, methods⟩

/-- One more name behind those of an option: there was none, and it is the one. -/
theorem toList_append_cons {α : Type} {o o' : Option α} {a : α} {rest : List α}
    (same : o.toList ++ a :: rest = o'.toList) : o = none ∧ o' = some a := by
  cases o <;> cases o' <;> simp_all

theorem toList_injective {α : Type} {o o' : Option α} (same : o.toList = o'.toList) : o = o' := by
  cases o <;> cases o' <;> simp_all

theorem Draft.Reads.eq (reads : draft.Reads [] last) : last = draft := by
  obtain ⟨name, rows, methods⟩ := reads
  cases draft
  cases last
  simp only [List.filterMap_nil, List.append_nil] at name rows methods
  rw [toList_injective name, rows, methods]

/-- Where declarations can be read, the first of them can. -/
theorem Draft.Reads.first {decl : Declaration} {decls : List Declaration}
    (reads : draft.Reads (decl :: decls) last) : ∃ next, draft.Reads [decl] next := by
  cases decl with
  | unit name =>
      obtain ⟨fresh, _⟩ := toList_append_cons reads.name
      refine ⟨⟨some name, draft.rows, draft.methods⟩, ?_, List.append_nil _, List.append_nil _⟩
      rw [fresh]
      rfl
  | row r =>
      exact ⟨⟨draft.name, draft.rows ++ [r], draft.methods⟩, List.append_nil _, rfl,
        List.append_nil _⟩
  | method m =>
      exact ⟨⟨draft.name, draft.rows, draft.methods ++ [m]⟩, List.append_nil _,
        List.append_nil _, rfl⟩

theorem Draft.Reads.distinct {decls : List Declaration} (reads : draft.Reads decls last)
    (distinct : last.Distinct) : draft.Distinct := by
  obtain ⟨_, rows, methods⟩ := reads
  obtain ⟨distinctRows, distinctMethods⟩ := distinct
  rw [← rows] at distinctRows
  rw [← methods] at distinctMethods
  exact ⟨(List.pairwise_append.1 distinctRows).1, (List.pairwise_append.1 distinctMethods).1⟩

theorem any_name_eq_false {α : Type} {name : α → String} {as : List α} {a : α} :
    as.any (name · == name a) = false ↔ ∀ b ∈ as, name b ≠ name a := by
  simp

theorem pairwise_append_singleton {α : Type} {R : α → α → Prop} {as : List α} {a : α}
    (pairs : as.Pairwise R) : (as ++ [a]).Pairwise R ↔ ∀ b ∈ as, R b a := by
  simp [List.pairwise_append, pairs]

/-- A declaration is accepted behind others if it declares nothing twice. -/
theorem itemAt_iff (distinct : draft.Distinct) :
    ItemAt lines draft c next d ↔
      next.Distinct ∧ ∃ decl, DeclarationAt lines c decl d ∧ draft.Reads [decl] next := by
  constructor
  · intro at_
    cases at_ with
    | unit word named fresh there =>
        refine ⟨⟨distinct.rows, distinct.methods⟩, _, .unit word named there, ?_, ?_, ?_⟩
        · simp [fresh, Declaration.unit?]
        · exact List.append_nil _
        · exact List.append_nil _
    | row word named there fresh =>
        refine ⟨⟨?_, distinct.methods⟩, _, .row word named there, ?_, rfl, ?_⟩
        · exact (pairwise_append_singleton distinct.rows).2 (any_name_eq_false.1 fresh)
        · exact List.append_nil _
        · exact List.append_nil _
    | method word named there fresh =>
        refine ⟨⟨distinct.rows, ?_⟩, _, .method word named there, ?_, ?_, rfl⟩
        · exact (pairwise_append_singleton distinct.methods).2 (any_name_eq_false.1 fresh)
        · exact List.append_nil _
        · exact List.append_nil _
  · rintro ⟨⟨rows', methods'⟩, decl, at_, name, rows, methods⟩
    obtain ⟨nextName, nextRows, nextMethods⟩ := next
    cases at_ with
    | unit word named there =>
        obtain ⟨fresh, rfl⟩ := toList_append_cons name
        obtain rfl : draft.rows = nextRows := (List.append_nil _).symm.trans rows
        obtain rfl : draft.methods = nextMethods := (List.append_nil _).symm.trans methods
        exact .unit word named fresh there
    | row word named there =>
        obtain rfl : draft.rows ++ [_] = nextRows := rows
        obtain rfl := toList_injective ((List.append_nil _).symm.trans name)
        obtain rfl : draft.methods = nextMethods := (List.append_nil _).symm.trans methods
        have fresh := (pairwise_append_singleton distinct.rows).1 rows'
        exact .row word named there (any_name_eq_false.2 fresh)
    | method word named there =>
        obtain rfl : draft.methods ++ [_] = nextMethods := methods
        obtain rfl := toList_injective ((List.append_nil _).symm.trans name)
        obtain rfl : draft.rows = nextRows := (List.append_nil _).symm.trans rows
        have fresh := (pairwise_append_singleton distinct.methods).1 methods'
        exact .method word named there (any_name_eq_false.2 fresh)

/-- Declarations that declare nothing twice are accepted one behind the other. -/
theorem itemsAt_iff (distinct : draft.Distinct) :
    ItemsAt lines draft c last d ↔
      last.Distinct ∧ ∃ decls, DeclarationsAt lines c decls d ∧ draft.Reads decls last := by
  constructor
  · intro at_
    induction at_ with
    | done ended => exact ⟨distinct, [], .done ended, .refl _⟩
    | more first _ ih =>
        obtain ⟨distinct, decl, at_, reads⟩ := (itemAt_iff distinct).1 first
        obtain ⟨distinct, decls, rest, more⟩ := ih distinct
        exact ⟨distinct, decl :: decls, .more at_ rest, reads.step.2 more⟩
  · rintro ⟨distinctLast, decls, at_, reads⟩
    induction at_ generalizing draft with
    | done ended =>
        rw [reads.eq]
        exact .done ended
    | @more _ _ _ decl decls first _ ih =>
        obtain ⟨next, one⟩ := reads.first
        have more := one.step.1 reads
        have distinctNext := more.distinct distinctLast
        have item := (itemAt_iff distinct).2 ⟨distinctNext, decl, first, one⟩
        exact .more item (ih distinctNext more)

theorem DeclarationAt.before {decl : Declaration} (at_ : DeclarationAt lines c decl d) :
    Before c d := by
  cases at_ with
  | unit word _ name => exact word.before.trans name.before
  | row word _ row => exact word.before.trans row.before
  | method word _ method => exact word.before.trans method.before

theorem DeclarationsAt.before {decls : List Declaration} (at_ : DeclarationsAt lines c decls d) :
    Before c d := by
  induction at_ with
  | done => exact .refl _
  | more first _ ih => exact first.before.trans ih

theorem DeclarationsAt.each {decls : List Declaration} (at_ : DeclarationsAt lines c decls d) :
    ∀ decl ∈ decls, ∃ m n, Before c m ∧ DeclarationAt lines m decl n ∧ Before n d := by
  induction at_ with
  | done => exact fun _ member => absurd member List.not_mem_nil
  | more first rest ih =>
      refine List.forall_mem_cons.2 ⟨⟨_, _, .refl _, first, rest.before⟩, fun decl member => ?_⟩
      obtain ⟨m, n, behind, here⟩ := ih decl member
      exact ⟨m, n, first.before.trans behind, here⟩

theorem StatementAt.wellFormed {s : StatementDecl} (at_ : StatementAt lines c s d) :
    s.WellFormed := by
  cases at_ with
  | proc | nextval => constructor <;> simp [Convention.isRow, Convention.isSingleColumn]
  | @sql _ convention _ _ _ _ _ _ _ _ _ noProc noNextval target _ _ =>
      have apart : convention.isSingleColumn = true → convention.isRow = false := by
        cases convention <;> simp [Convention.isSingleColumn, Convention.isRow]
      cases target with
      | row rows _ =>
          have noValue : convention.isSingleColumn = false := by
            cases single : convention.isSingleColumn <;> simp_all
          constructor <;> simp [rows, noValue, noProc, noNextval]
      | discovered single _ _ | value single _ _ _ =>
          constructor <;> simp [single, apart single, noProc, noNextval]
      | none noRow noValue => constructor <;> simp [noRow, noValue, noProc, noNextval]

/-- No element is repeated if all have keys of their own. -/
theorem firstRepeated?_iff {α : Type} {key : α → String} {as : List α} (seen : List String) :
    firstRepeated? key seen as = none ↔
      (∀ a ∈ as, key a ∉ seen) ∧ as.Pairwise fun a b => key a ≠ key b := by
  induction as generalizing seen with
  | nil => simp [firstRepeated?]
  | cons a rest ih =>
      unfold firstRepeated?
      by_cases again : key a ∈ seen
      · simp [again]
      · have here : (a :: rest).Pairwise (key · ≠ key ·) ↔
            (∀ b ∈ rest, key b ≠ key a) ∧ rest.Pairwise (key · ≠ key ·) := by
          simp only [List.pairwise_cons, ne_comm]
        rw [here, List.forall_mem_cons]
        simp only [List.contains_eq_mem, again, decide_false, Bool.false_eq_true, if_false, ih,
          List.mem_cons, not_or, forall_and, not_false_eq_true, true_and]
        exact ⟨fun ⟨⟨fresh, unseen⟩, pairs⟩ => ⟨unseen, fresh, pairs⟩,
          fun ⟨unseen, fresh, pairs⟩ => ⟨⟨fresh, unseen⟩, pairs⟩⟩

theorem MethodAt.wellFormed {keyword : Ident} {m : MethodDecl}
    (at_ : MethodAt lines keyword c m d) : m.WellFormed := by
  obtain ⟨⟨_, _, _, _, _, _, params, _, statements⟩, _, distinct⟩ := at_
  refine ⟨((firstRepeated?_iff []).1 distinct).2, fun p member => ?_, fun s member => ?_⟩
  · obtain ⟨_, _, _, param, _⟩ := params.each (fun _ _ _ param => param.before) p member
    exact param.known
  · obtain ⟨_, _, here⟩ := statements.each s member
    exact here.wellFormed

end Scanner

namespace SourceUnit

open Scanner

/-- What a unit has of its declarations. -/
structure Declares (unit : SourceUnit) (decls : List Declaration) : Prop where
  name : decls.filterMap (·.unit?) = [unit.name]
  rows : decls.filterMap (·.row?) = unit.rows
  methods : decls.filterMap (·.method?) = unit.methods

/-- Rows and methods are told apart by their names, and the rows that statements populate are
declared. -/
structure Resolved (unit : SourceUnit) : Prop where
  rows : unit.rows.Pairwise fun r r' => r.name.name ≠ r'.name.name
  methods : unit.methods.Pairwise fun m m' => m.name.name ≠ m'.name.name
  targets : ∀ m ∈ unit.methods, ∀ s ∈ m.statements, ∀ name, s.target = .row name →
    ∃ r ∈ unit.rows, r.name.name = name.name

/-- What every unit keeps to. -/
structure WellFormed (unit : SourceUnit) : Prop extends Resolved unit where
  fields : ∀ r ∈ unit.rows, r.fields ≠ some []
  each : ∀ m ∈ unit.methods, m.WellFormed

variable {unit : SourceUnit}

theorem declares_iff {decls : List Declaration} :
    unit.Declares decls ↔
      Draft.Reads ⟨none, [], []⟩ decls ⟨some unit.name, unit.rows, unit.methods⟩ :=
  ⟨fun ⟨name, rows, methods⟩ => ⟨name, rows, methods⟩,
    fun ⟨name, rows, methods⟩ => ⟨name, rows, methods⟩⟩

theorem resolved_iff :
    unit.Resolved ↔
      Draft.Distinct ⟨some unit.name, unit.rows, unit.methods⟩ ∧
        undeclaredRow? ⟨some unit.name, unit.rows, unit.methods⟩ = none := by
  rw [undeclaredRow?_eq_none]
  simp only [List.any_eq_true, beq_iff_eq]
  exact ⟨fun ⟨rows, methods, targets⟩ => ⟨⟨rows, methods⟩, targets⟩,
    fun ⟨⟨rows, methods⟩, targets⟩ => ⟨rows, methods, targets⟩⟩

/-- A text is a unit exactly if it consists of the declarations of this unit. -/
theorem scan_iff {path source : String} :
    scan path source = .ok unit ↔
      (∃ decls d, DeclarationsAt (LineIndex.ofText source.toList)
          (Scanner.Cursor.mk 0 source.toList).skip decls d ∧ unit.Declares decls) ∧
        unit.Resolved ∧ unit.path = path ∧ unit.source = source ∧
        unit.line = (LineIndex.ofText source.toList).line unit.name.span.start := by
  have empty : Draft.Distinct ⟨none, [], []⟩ := ⟨.nil, .nil⟩
  rw [scan_eq_ok, resolved_iff]
  constructor
  · rintro ⟨draft, d, name, at_, named, declared, rfl⟩
    obtain ⟨_, rows, methods⟩ := draft
    obtain rfl : _ = some name := named
    obtain ⟨distinct, decls, at_, reads⟩ := (itemsAt_iff empty).1 at_
    exact ⟨⟨decls, d, at_, declares_iff.2 reads⟩, ⟨distinct, declared⟩, rfl, rfl, rfl⟩
  · rintro ⟨⟨decls, d, at_, declares⟩, ⟨distinct, declared⟩, rfl, rfl, line⟩
    have items := (itemsAt_iff empty).2 ⟨distinct, decls, at_, declares_iff.1 declares⟩
    refine ⟨_, d, unit.name, items, rfl, declared, ?_⟩
    rw [← line]

/-- Every declaration of a unit stands in its text. -/
structure Stands (unit : SourceUnit) (lines : LineIndex) (start : Scanner.Cursor) : Prop where
  name : ∃ c d, Before start c ∧ DeclarationAt lines c (.unit unit.name) d
  rows : ∀ r ∈ unit.rows, ∃ c d, Before start c ∧ DeclarationAt lines c (.row r) d
  methods : ∀ m ∈ unit.methods, ∃ c d, Before start c ∧ DeclarationAt lines c (.method m) d

theorem scan_declared {path source : String} (read : scan path source = .ok unit) :
    unit.Stands (LineIndex.ofText source.toList) ⟨0, source.toList⟩ := by
  obtain ⟨⟨decls, d, at_, declares⟩, _⟩ := scan_iff.1 read
  have each {α : Type} {f : Declaration → Option α} {make : α → Declaration} {a : α}
      (made : ∀ decl, f decl = some a → make a = decl) (member : a ∈ decls.filterMap f) :
      ∃ c d, Before ⟨0, source.toList⟩ c ∧
        DeclarationAt (LineIndex.ofText source.toList) c (make a) d := by
    obtain ⟨decl, among, same⟩ := List.mem_filterMap.1 member
    obtain ⟨c, d, behind, here, _⟩ := at_.each decl among
    rw [made decl same]
    exact ⟨c, d, (Cursor.before_skip _).trans behind, here⟩
  refine ⟨each (fun _ => Declaration.unit?_eq_some.1) ?_, fun r member => ?_, fun m member => ?_⟩
  · rw [declares.name]
    exact .head _
  · exact each (fun _ => Declaration.row?_eq_some.1) (declares.rows ▸ member)
  · exact each (fun _ => Declaration.method?_eq_some.1) (declares.methods ▸ member)

/-- What is read is well-formed. -/
theorem scan_wellFormed {path source : String} (read : scan path source = .ok unit) :
    unit.WellFormed := by
  obtain ⟨_, rows, methods⟩ := scan_declared read
  obtain ⟨_, resolved, _⟩ := scan_iff.1 read
  refine ⟨resolved, fun r member => ?_, fun m member => ?_⟩
  · obtain ⟨_, _, _, at_⟩ := rows r member
    cases at_ with
    | row _ _ there => exact there.known
  · obtain ⟨_, _, _, at_⟩ := methods m member
    cases at_ with
    | method _ _ there => exact there.wellFormed

end SourceUnit

end SqlUnits
