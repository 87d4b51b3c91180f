import SqlUnits.Access.QueryPiece
import SqlUnits.Proofs.Check.Binding
import SqlUnits.Proofs.Query.Numbering
/-!
What is sent is what was checked. The normal form of a query is its own, so the text that an
artifact keeps has the placeholders, in number and order, that arguments were bound to.
-/

namespace SqlUnits

namespace Query

/-- The query that reads as its own normal form: a question mark at every offset. -/
def ParsedQuery.unnamed (q : ParsedQuery) : ParsedQuery :=
  ⟨q.sql, q.positions.map fun offset => ⟨offset, none, ⟨offset, offset + 1⟩⟩⟩

theorem ParsedQuery.paramCount_unnamed (q : ParsedQuery) : q.unnamed.paramCount = q.paramCount := by
  simp [unnamed, paramCount, positions]

theorem placeholdersFrom_unnamed (offset : Nat) (ps : List Piece) :
    placeholdersFrom offset offset (ps.map Piece.unnamed) =
      (offsetsFrom offset ps).map fun offset => ⟨offset, none, ⟨offset, offset + 1⟩⟩ := by
  have size : Text.byteLength ['?'] = 1 := rfl
  induction ps generalizing offset with
  | nil => rfl
  | cons p ps ih =>
      cases p with
      | verbatim text => exact ih _
      | positional | named =>
          simp only [List.map_cons, Piece.unnamed, placeholdersFrom, Piece.raw, Piece.normal, size,
            offsetsFrom, ih]

/-- A normal form is its own: the placeholders stay where they are, and have no names. -/
theorem parse_sql {raw : String} {q : ParsedQuery} (parsed : parse raw = .ok q) :
    parse q.sql = .ok q.unnamed := by
  obtain ⟨ps, cut, _, rfl⟩ := parse_eq_ok parsed
  have again := parse_spelled (isCut_unnamed cut)
  rw [spelled_unnamed] at again
  refine again.trans (congrArg Except.ok ?_)
  unfold ParsedQuery.unnamed
  rw [ParsedQuery.positions_ofPieces, ParsedQuery.ofPieces, normal_unnamed,
    placeholdersFrom_unnamed]
  rfl

end Query

namespace QueryPiece

/-- A piece with parameters that are bound one after the other. -/
theorem foldl_bind (piece : QueryPiece) (params : List Parameter) :
    params.foldl bind piece = { piece with params := piece.params ++ params } := by
  induction params generalizing piece with
  | nil => simp
  | cons param params ih => simp [ih, bind]

end QueryPiece

namespace Arguments

/-- Arguments are names that the placeholders are bound to, and a value for each. -/
theorem ofStatement_bound {registry : Registry} {table : ParamTable} {method : MethodDecl}
    {s : StatementDecl} {q : Query.ParsedQuery} {args : Arguments}
    (bound : ofStatement registry table method s q = .ok args) :
    method.bindPlaceholders s.args q = .ok args.names ∧ args.values.length = q.paramCount := by
  have length := (ofStatement_eq_ok bound).1
  unfold ofStatement at bound
  obtain ⟨names, found, bound⟩ := bind_result bound
  obtain ⟨types, known, bound⟩ := bind_result bound
  obtain ⟨values, written, bound⟩ := bind_result bound
  cases bound
  have kinds := (mapM_eq_ok_iff.1 known).length_eq
  have filled := (mapM_eq_ok_iff.1 written).length_eq
  rw [List.length_zip, ← kinds, Nat.min_self] at filled
  exact ⟨found, filled.symm.trans length⟩

end Arguments

namespace Validator

variable {v : Validator} {site : Site} {s t : CheckState} {checked : Checked}
  {params : ParamTable}

theorem checkQuery_keeps {typed : TypedStatement} {sql : String} {args : Arguments}
    (runs : Runs (v.checkQuery site typed sql args) s checked t) :
    checked.statement.sql = typed.sql ∧ checked.statement.args = typed.args := by
  obtain ⟨columns, u, _, rest⟩ := runs_checkQuery.1 runs
  cases target : site.statement.target with
  | row name =>
      rw [target] at rest
      obtain ⟨_, _, _, _, _, rfl⟩ := runs_checkRow.1 rest
      exact ⟨rfl, rfl⟩
  | value type span =>
      rw [target] at rest
      obtain ⟨_, _, made⟩ := bind_result rest.1
      cases made
      exact ⟨rfl, rfl⟩
  | none =>
      rw [target] at rest
      obtain ⟨rfl, _⟩ := rest
      exact ⟨rfl, rfl⟩

/-- A statement with a text is kept with its normal form, and with the names of its arguments. -/
theorem statement_keeps_sql (noProc : site.statement.convention ≠ .proc)
    (noNextval : site.statement.convention ≠ .nextval)
    (runs : Runs (v.statement params site) s checked t) :
    ∃ written q args, site.statement.sql = some written ∧ Query.parse written.text = .ok q ∧
      Arguments.ofStatement v.registry params site.method site.statement q = .ok args ∧
      checked.statement.sql = some q.sql ∧ checked.statement.args = args.names := by
  obtain ⟨written, q, args, there, parsed, bound, rest⟩ :=
    (runs_statement_sql noProc noNextval).1 runs
  refine ⟨written, q, args, there, parsed, bound, ?_⟩
  split at rest
  · obtain ⟨_, _, _, _, _, _, _, rfl⟩ := runs_checkMutation.1 rest
    exact ⟨rfl, rfl⟩
  · exact checkQuery_keeps rest

/-- The text that is kept of a statement is the normal form of its own, the names of its arguments
those that its placeholders were bound to. -/
theorem statement_keeps {sql : String} (runs : Runs (v.statement params site) s checked t)
    (kept : checked.statement.sql = some sql) :
    ∃ written q args, site.statement.sql = some written ∧
      Query.parse written.text = .ok q ∧ sql = q.sql ∧
      Arguments.ofStatement v.registry params site.method site.statement q = .ok args ∧
      checked.statement.args = args.names := by
  by_cases proc : site.statement.convention = .proc
  · obtain ⟨_, _, _, _, _, _, rest⟩ := (runs_statement_proc proc).1 runs
    obtain ⟨_, _, _, rfl⟩ := runs_checkObject.1 rest
    cases kept
  by_cases nextval : site.statement.convention = .nextval
  · obtain ⟨_, _, rest⟩ := (runs_statement_nextval nextval).1 runs
    obtain ⟨_, _, _, rfl⟩ := runs_checkObject.1 rest
    cases kept
  obtain ⟨written, q, args, there, parsed, bound, text, names⟩ :=
    statement_keeps_sql proc nextval runs
  exact ⟨written, q, args, there, parsed, Option.some.inj (kept.symm.trans text), bound, names⟩

/-- The statement at a place of the artifact is what the check made of the one at this place of the
unit. -/
theorem Passing.placed {unit : SourceUnit} {u : ValidatedUnit} {run last : RunRecord}
    {opened : Connection} (passing : Passing v unit u run last opened t) {i j : Nat}
    {typed : TypedMethod} {statement : TypedStatement} (there : u.methods[i]? = some typed)
    (here : typed.statements[j]? = some statement) :
    ∃ method decl, unit.methods[i]? = some method ∧ method.statements[j]? = some decl ∧
      (⟨unit, method, decl⟩, statement) ∈ unit.checkedSites u.methods := by
  obtain ⟨method, found, typedAs⟩ := getElem?_of_forall₂ passing.typed.flip there
  obtain ⟨within, _⟩ := List.getElem?_eq_some_iff.1 here
  rw [typedAs.statements] at within
  have decl := List.getElem?_eq_getElem within
  have pair : (unit.methods.zip u.methods)[i]? = some (method, typed) :=
    List.getElem?_zip_eq_some.2 ⟨found, there⟩
  have inner : (method.statements.zip typed.statements)[j]? = some (_, statement) :=
    List.getElem?_zip_eq_some.2 ⟨decl, here⟩
  exact ⟨method, _, found, decl, SourceUnit.mem_checkedSites (List.mem_of_getElem? pair)
    (List.mem_of_getElem? inner)⟩

/-- A normal form is its own. What an artifact keeps of a statement is the normal form of its text,
with the parameters that its placeholders were bound to, in their order; sent with a parameter for
each of them, it has no placeholder too many and none too few. -/
theorem validate_sends :
    (∀ raw q, Query.parse raw = .ok q → Query.parse q.sql = .ok q.unnamed) ∧
    ∀ (v : Validator) source unit run u last, v.validate source unit run = (.ok u, last) →
      ∀ (i j : Nat) (typed : TypedMethod) (s : TypedStatement) (sql : String),
        u.methods[i]? = some typed → typed.statements[j]? = some s → s.sql = some sql →
        ∃ method decl written q args, unit.methods[i]? = some method ∧
          method.statements[j]? = some decl ∧ decl.sql = some written ∧
          Query.parse written.text = .ok q ∧ sql = q.sql ∧ Query.parse sql = .ok q.unnamed ∧
          method.bindPlaceholders decl.args q = .ok s.args ∧
          Arguments.ofStatement v.registry u.params method decl q = .ok args ∧
          args.names = s.args ∧ args.values.length = q.paramCount ∧
          s.args.length = q.paramCount ∧
          ∀ params : List Parameter, params.length = s.args.length →
            (params.foldl QueryPiece.bind ⟨sql, []⟩).sql = sql ∧
            (params.foldl QueryPiece.bind ⟨sql, []⟩).params = params ∧
            (params.foldl QueryPiece.bind ⟨sql, []⟩).placeholderCount = .ok params.length := by
  refine ⟨fun _ _ => Query.parse_sql, ?_⟩
  intro v source unit run u last passed i j typed s sql there here text
  obtain ⟨_, _, _, _, passing⟩ := validate_passing passed
  obtain ⟨method, decl, found, declared, member⟩ := passing.placed there here
  obtain ⟨_, checked, _, runs, rfl, _⟩ := passing.trace.visited member
  obtain ⟨written, q, args, known, parsed, rfl, bound, names⟩ := statement_keeps runs text
  obtain ⟨resolved, filled⟩ := Arguments.ofStatement_bound bound
  have length := (Arguments.ofStatement_eq_ok bound).1
  rw [← names] at resolved length
  have again := Query.parse_sql parsed
  refine ⟨method, decl, written, q, args, found, declared, known, parsed, rfl, again, resolved,
    bound, names.symm, filled, length, fun params each => ?_⟩
  rw [QueryPiece.foldl_bind]
  refine ⟨rfl, rfl, ?_⟩
  rw [QueryPiece.placeholderCount, again, each, length, ← q.paramCount_unnamed]
  rfl

theorem validate_sends_value :
    let v : Validator := { registry := .builtins, checker := .generic }
    let text := "unit A fn m() \x7bvalue _\x7bSELECT 1 AS n\x7d\x7d"
    Query.parse "SELECT ? || ?::int" =
        .ok ⟨"SELECT ? || ?::int", [⟨7, none, ⟨7, 8⟩⟩, ⟨12, none, ⟨12, 13⟩⟩]⟩ ∧
      ∃ unit u last typed s, SourceUnit.scan "a" text = .ok unit ∧
        v.validate (.apart (.ok {})) unit {} = (.ok u, last) ∧ u.methods[0]? = some typed ∧
        typed.statements[0]? = some s ∧ s.sql = some "SELECT 1 AS n" ∧ s.args = [] ∧
        (QueryPiece.mk "SELECT 1 AS n" []).placeholderCount = .ok 0 := by
  intro v text
  have named : Query.parse "SELECT :x || :y::int" =
      .ok ⟨"SELECT ? || ?::int", [⟨7, some "x", ⟨7, 9⟩⟩, ⟨12, some "y", ⟨13, 15⟩⟩]⟩ := by
    decide +kernel
  refine ⟨validate_sends.1 _ _ named, ?_⟩
  have shown : ((SourceUnit.scan "a" text).toOption.bind fun unit =>
      (v.validate (.apart (.ok {})) unit {}).1.toOption.map fun u =>
        u.methods.map (·.statements.map fun s => (s.sql, s.args))) =
          some [[(some "SELECT 1 AS n", [])]] := by
    decide +kernel
  obtain ⟨unit, read, shown⟩ := Option.bind_eq_some_iff.1 shown
  obtain ⟨u, passed, kept⟩ := Option.map_eq_some_iff.1 shown
  obtain ⟨typed, methods, statements⟩ := List.map_eq_singleton_iff.1 kept
  obtain ⟨s, only, pair⟩ := List.map_eq_singleton_iff.1 statements
  obtain ⟨sql, args⟩ := Prod.mk.inj pair
  have there : u.methods[0]? = some typed := by rw [methods]; rfl
  have here : typed.statements[0]? = some s := by rw [only]; rfl
  have passed : v.validate (.apart (.ok {})) unit {} = (.ok u, _) :=
    Prod.ext (eq_ok_of_toOption passed) rfl
  obtain ⟨_, _, _, _, _, _, _, _, _, _, _, _, _, _, _, _, sent⟩ :=
    validate_sends.2 v _ unit _ u _ passed 0 0 typed s _ there here sql
  refine ⟨unit, u, _, typed, s, eq_ok_of_toOption read, passed, there, here, sql, args, ?_⟩
  exact (sent [] (congrArg List.length args.symm)).2.2

end Validator

end SqlUnits
