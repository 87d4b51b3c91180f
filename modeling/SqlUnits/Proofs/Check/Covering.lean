import SqlUnits.Proofs.Check.Fetching
import SqlUnits.Proofs.Check.Sending
import SqlUnits.Proofs.Sql.Rest
/-!
How much of the text of a statement is checked: its first statement. What stands behind the
semicolon of this one is neither compiled nor ever run.
-/

namespace SqlUnits

/-- All of a text was compiled into a statement: nothing but blanks, comments and semicolons is
left of it. -/
def Statement.Covers (s : Statement) (sql : String) : Prop :=
  ∃ compiled, sql.toList = compiled ++ s.rest ∧ '\x00' ∉ compiled ∧ Sql.Idle s.rest

namespace Connection

variable {c : Connection} {sql : String} {s : Statement}

theorem ofParsed_rest {p : Sql.Parsed} (made : Statement.ofParsed c p = .ok s) :
    s.rest = p.rest := by
  obtain ⟨_, _, made⟩ := bind_result made
  cases made
  rfl

theorem prepare_rest (prepared : c.prepare sql = .ok s) :
    (∃ compiled, sql.toList.takeWhile (· ≠ '\x00') = compiled ++ s.rest ∧
      (s.rest = [] ∨ compiled.getLast? = some ';')) ∧
    (Sql.Idle s.rest ↔ Sql.isSingle sql.toList = true) := by
  unfold prepare at prepared
  split at prepared
  case h_1 => cases prepared
  case h_2 read =>
    cases prepared
    exact ⟨⟨_, (List.append_nil _).symm, .inl rfl⟩,
      iff_of_true .nil (Sql.Parsed.ofText_none read)⟩
  case h_3 p read =>
    rw [ofParsed_rest (mapError_eq_ok.1 prepared)]
    exact Sql.Parsed.ofText_rest read

/-- A text is compiled as a whole if it holds one statement and no zero character. -/
theorem prepare_covers (prepared : c.prepare sql = .ok s) :
    s.Covers sql ↔ '\x00' ∉ sql.toList ∧ Sql.isSingle sql.toList = true := by
  obtain ⟨⟨read, cut, _⟩, idle⟩ := prepare_rest prepared
  rw [← idle]
  constructor
  · rintro ⟨compiled, whole, solid, idle⟩
    have behind : '\x00' ∉ s.rest := by
      intro member
      have kept : '\x00' ∈ sql.toList.takeWhile (· ≠ '\x00') := cut ▸ List.mem_append_right _ member
      simpa using List.mem_takeWhile_imp kept
    rw [whole, List.mem_append, not_or]
    exact ⟨⟨solid, behind⟩, idle⟩
  · rintro ⟨solid, idle⟩
    have all : sql.toList.takeWhile (· ≠ '\x00') = sql.toList := by
      rw [List.takeWhile_eq_self_iff]
      intro c member
      rw [decide_eq_true_eq]
      rintro rfl
      exact solid member
    rw [all] at cut
    rw [cut, List.mem_append, not_or] at solid
    exact ⟨read, cut, solid.1, idle⟩

end Connection

namespace Validator

variable {v : Validator} {site : Site} {s t : CheckState} {checked : Checked}
  {params : ParamTable}

/-- The text of a statement as it is prepared. -/
def preparedText (v : Validator) (convention : Convention) (sql : String) :
    Except ValidationError String :=
  if convention.isMutation then v.mutationText convention sql else .ok sql

theorem statement_prepares {sql : String} (runs : Runs (v.statement params site) s checked t)
    (kept : checked.statement.sql = some sql) :
    ∃ text prepared, v.preparedText site.statement.convention sql = .ok text ∧
      s.connection.prepare text = .ok prepared := by
  by_cases proc : site.statement.convention = .proc
  · obtain ⟨_, _, _, _, _, _, rest⟩ := (runs_statement_proc proc).1 runs
    obtain ⟨_, _, _, rfl⟩ := runs_checkObject.1 rest
    cases kept
  by_cases nextval : site.statement.convention = .nextval
  · obtain ⟨_, _, rest⟩ := (runs_statement_nextval nextval).1 runs
    obtain ⟨_, _, _, rfl⟩ := runs_checkObject.1 rest
    cases kept
  obtain ⟨written, q, args, _, _, _, rest⟩ := (runs_statement_sql proc nextval).1 runs
  unfold preparedText
  split at rest
  case isTrue mutation =>
    obtain ⟨_, text, ⟨prepared, _⟩, _, found, prepares, _, rfl⟩ := runs_checkMutation.1 rest
    cases kept
    rw [if_pos mutation]
    exact ⟨text, prepared, found, prepared_statement prepares⟩
  case isFalse query =>
    obtain ⟨text, _⟩ := checkQuery_keeps rest
    obtain ⟨_, _, discovers, _⟩ := runs_checkQuery.1 rest
    obtain ⟨prepared, _, prepares, _⟩ := runs_discover.1 discovers
    cases text.symm.trans kept
    rw [if_neg query]
    exact ⟨q.sql, prepared, rfl, prepared_statement prepares⟩

/-- What the check of the first statement of a text comes to, worked out at once. -/
theorem exists_checked (v : Validator) (text sql : String) (rest : Text)
    (shown : ((SourceUnit.scan "u" text).toOption.bind fun unit =>
      (v.validate (.apart (.ok {})) unit {}).1.toOption.bind fun u =>
        (unit.sites.zip (u.methods.flatMap (·.statements)))[0]?.bind fun place =>
          ((v.reached u.params unit {} 0).prepare sql).toOption.map fun s =>
            (place.1.statement.convention, place.2.sql, s.rest)) = some (.value, some sql, rest)) :
    ∃ unit u last site typed s, SourceUnit.scan "u" text = .ok unit ∧
      v.validate (.apart (.ok {})) unit {} = (.ok u, last) ∧
      (unit.sites.zip (u.methods.flatMap (·.statements)))[0]? = some (site, typed) ∧
      site.statement.convention = .value ∧ typed.sql = some sql ∧
      (v.reached u.params unit {} 0).prepare sql = .ok s ∧ s.rest = rest := by
  obtain ⟨unit, read, shown⟩ := Option.bind_eq_some_iff.1 shown
  obtain ⟨u, passed, shown⟩ := Option.bind_eq_some_iff.1 shown
  obtain ⟨⟨site, typed⟩, here, shown⟩ := Option.bind_eq_some_iff.1 shown
  obtain ⟨s, prepared, shown⟩ := Option.map_eq_some_iff.1 shown
  simp only [Prod.mk.injEq] at shown
  exact ⟨unit, u, _, site, typed, s, eq_ok_of_toOption read,
    Prod.ext (eq_ok_of_toOption passed) rfl, here, shown.1, shown.2.1,
    eq_ok_of_toOption prepared, shown.2.2⟩

end Validator

end SqlUnits
