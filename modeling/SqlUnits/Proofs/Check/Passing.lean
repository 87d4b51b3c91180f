import Mathlib.Data.List.Forall2
import SqlUnits.Proofs.Check.Stepping
/-!
Checks that pass: what a statement must be to pass, and what it leaves behind. Each function of
the check has one equivalence for its success.
-/

namespace SqlUnits

/-- Related lists have no element without a counterpart. -/
theorem forall₂_mem {R : α → β → Prop} {as : List α} {bs : List β}
    (pairs : List.Forall₂ R as bs) :
    (∀ a ∈ as, ∃ b ∈ bs, R a b) ∧ ∀ b ∈ bs, ∃ a ∈ as, R a b := by
  induction pairs with
  | nil => exact ⟨nofun, nofun⟩
  | @cons a b as bs one _ ih =>
      obtain ⟨left, right⟩ := ih
      constructor
      · intro x member
        rcases List.mem_cons.1 member with rfl | later
        · exact ⟨b, .head bs, one⟩
        · obtain ⟨y, inside, related⟩ := left x later
          exact ⟨y, .tail b inside, related⟩
      · intro y member
        rcases List.mem_cons.1 member with rfl | later
        · exact ⟨a, .head as, one⟩
        · obtain ⟨x, inside, related⟩ := right y later
          exact ⟨x, .tail a inside, related⟩

/-- A computation succeeds, and leaves a state. -/
def Runs (x : ExceptT ε (StateM σ) α) (s : σ) (a : α) (t : σ) : Prop :=
  (x.run).run s = (.ok a, t)

section

variable {ε ε' : Type} {σ α β : Type} {s t u : σ} {a : α} {b : β}

/-- A computation whose outcome is known. -/
theorem runs_iff {x : ExceptT ε (StateM σ) α} {result : Except ε α}
    (outcome : (x.run).run s = (result, u)) : Runs x s a t ↔ result = .ok a ∧ t = u := by
  unfold Runs
  rw [outcome]
  constructor
  · intro same
    cases same
    exact ⟨rfl, rfl⟩
  · rintro ⟨rfl, rfl⟩
    rfl

theorem runs_bind {x : ExceptT ε (StateM σ) α} {k : α → ExceptT ε (StateM σ) β} :
    Runs (x >>= k) s b u ↔ ∃ a t, Runs x s a t ∧ Runs (k a) t b u := by
  unfold Runs
  rw [run_bind]
  rcases (x.run).run s with ⟨result, t⟩
  cases result with
  | error e =>
      refine iff_of_false (fun same => by cases same) ?_
      rintro ⟨_, _, same, _⟩
      cases same
  | ok a =>
      constructor
      · exact fun second => ⟨a, t, rfl, second⟩
      · rintro ⟨_, _, same, second⟩
        cases same
        exact second

theorem runs_pure {c : α} : Runs (pure c : ExceptT ε (StateM σ) α) s a t ↔ a = c ∧ t = s := by
  have outcome : ((pure c : ExceptT ε (StateM σ) α).run).run s = (.ok c, s) := rfl
  rw [runs_iff outcome, Except.ok.injEq, eq_comm]

theorem not_runs_throw {e : ε} : ¬Runs (throw e : ExceptT ε (StateM σ) α) s a t := by
  intro runs
  have outcome : ((throw e : ExceptT ε (StateM σ) α).run).run s = (.error e, s) := rfl
  obtain ⟨fails, _⟩ := (runs_iff outcome).1 runs
  cases fails

theorem runs_adapt {f : ε → ε'} {x : ExceptT ε (StateM σ) α} :
    Runs (ExceptT.adapt f x) s a t ↔ Runs x s a t := by
  rw [runs_iff (run_adapt f x s), mapError_eq_ok]
  constructor
  · rintro ⟨result, rfl⟩
    exact Prod.ext result rfl
  · intro runs
    have whole : (x.run).run s = (.ok a, t) := runs
    rw [whole]
    exact ⟨rfl, rfl⟩

/-- What the end of a fold allows, its beginning allows. -/
theorem bounded_of_runs_foldlM {γ : Type} {f : γ → α → ExceptT ε (StateM σ) γ}
    (bounded : γ → σ → Prop)
    (back : ∀ c a s d t, Runs (f c a) s d t → bounded d t → bounded c s) {as : List α} {c d : γ}
    (runs : Runs (as.foldlM f c) s d t) (bound : bounded d t) : bounded c s := by
  induction as generalizing c s with
  | nil =>
      obtain ⟨rfl, rfl⟩ := runs_pure.1 runs
      exact bound
  | cons a as ih =>
      rw [List.foldlM_cons] at runs
      obtain ⟨_, _, first, others⟩ := runs_bind.1 runs
      exact back _ _ _ _ _ first (ih others)

/-- What every step of a fold adds for its element, the whole fold adds for all, in their order. -/
theorem added_of_runs_foldlM {γ δ : Type} {f : γ → α → ExceptT ε (StateM σ) γ}
    {R : δ → β → Prop} (seen : γ → List β) (sources : α → List δ)
    (step : ∀ c a s d t, Runs (f c a) s d t →
      ∃ new, List.Forall₂ R (sources a) new ∧ seen d = seen c ++ new)
    {as : List α} {c d : γ} (runs : Runs (as.foldlM f c) s d t) :
    ∃ new, List.Forall₂ R (as.flatMap sources) new ∧ seen d = seen c ++ new := by
  induction as generalizing c s with
  | nil =>
      obtain ⟨rfl, rfl⟩ := runs_pure.1 runs
      exact ⟨[], .nil, (List.append_nil _).symm⟩
  | cons a as ih =>
      rw [List.foldlM_cons] at runs
      obtain ⟨_, _, first, others⟩ := runs_bind.1 runs
      obtain ⟨new, pairs, one⟩ := step _ _ _ _ _ first
      obtain ⟨more, pairs', rest⟩ := ih others
      refine ⟨new ++ more, ?_, by rw [rest, one, List.append_assoc]⟩
      rw [List.flatMap_cons]
      exact List.rel_append pairs pairs'

/-- One fold repeats another whose elements are related to its own, if every step repeats its
counterpart as far as the end of the whole fold allows it. What is alike may depend on the elements
that have been folded already. -/
theorem runs_foldlM {γ γ' : Type} {f : γ → α → ExceptT ε (StateM σ) γ}
    {g : γ' → β → ExceptT ε (StateM σ) γ'} {related : α → β → Prop}
    (alike : List α → γ → γ' → σ → σ → Prop) (bounded : γ → σ → Prop)
    (back : ∀ c a s d t, Runs (f c a) s d t → bounded d t → bounded c s)
    {as past : List α} {bs : List β} (pairs : List.Forall₂ related as bs)
    (step : ∀ past c c' a b s s' d t, related a b → alike past c c' s s' → Runs (f c a) s d t →
      bounded d t → ∃ d' t', Runs (g c' b) s' d' t' ∧ alike (past ++ [a]) d d' t t')
    {c d : γ} {c' : γ'} {s' : σ} (start : alike past c c' s s')
    (runs : Runs (as.foldlM f c) s d t) (bound : bounded d t) :
    ∃ d' t', Runs (bs.foldlM g c') s' d' t' ∧ alike (past ++ as) d d' t t' := by
  induction pairs generalizing past c c' s s' with
  | nil =>
      obtain ⟨rfl, rfl⟩ := runs_pure.1 runs
      rw [List.append_nil]
      exact ⟨c', s', runs_pure.2 ⟨rfl, rfl⟩, start⟩
  | @cons a b as bs one rest ih =>
      rw [List.foldlM_cons] at runs ⊢
      obtain ⟨e, u, first, others⟩ := runs_bind.1 runs
      have within : bounded e u := bounded_of_runs_foldlM bounded back others bound
      obtain ⟨e', u', first', next⟩ := step past c c' a b s s' e u one start first within
      obtain ⟨d', t', others', last⟩ := ih next others
      rw [List.append_assoc, List.singleton_append] at last
      exact ⟨d', t', runs_bind.2 ⟨e', u', first', others'⟩, last⟩

end

theorem runs_lift {result : Except ValidationError α} {s t : CheckState} {a : α} :
    Runs (Validator.lift result) s a t ↔ result = .ok a ∧ t = s := by
  rw [runs_iff (run_lift result s)]

namespace Validator

variable {v : Validator} {site : Site} {s t : CheckState}

/-- What there is to say about a statement that does not run, by the answer of the checker. -/
def note (site : Site) (answer : Except CheckError Unit) : Except ValidationError Diagnostic :=
  let say (code : DiagnosticCode) (message : String) : Diagnostic :=
    { code, severity := .info, location := some site.location
      message := site.statement.convention.keyword ++ " statement in " ++ site.owner ++ message }
  match answer with
  | .ok _ =>
      .ok (say .mutationNotExecuted
        " was checked but not executed; constraints were not exercised")
  | .error (.unsupported reason) => .ok (say .info (" was not checked: " ++ reason))
  | .error e => .error e.validationError

/-- The state once the checker was asked. -/
def asked (v : Validator) (call : CheckCall) (s : CheckState) : CheckState :=
  if v.checker.records then { s with checks := s.checks ++ [call] } else s

theorem askChecker_run (v : Validator) (site : Site) (call : CheckCall) (s : CheckState) :
    ((v.askChecker site call).run).run s =
      (note site (v.checker.check s.connection call), v.asked call s) := by
  unfold askChecker asked
  simp only [run_bind, run_get]
  split
  all_goals
    rename_i records
    try rw [run_bind, run_set]
    cases v.checker.check s.connection call with
    | ok _ => rfl
    | error e => cases e <;> rfl

theorem runs_askChecker {call : CheckCall} {d : Diagnostic} :
    Runs (v.askChecker site call) s d t ↔
      note site (v.checker.check s.connection call) = .ok d ∧ t = v.asked call s :=
  runs_iff (askChecker_run v site call s)

theorem runs_prepare {sql : String} {args : Arguments} {pair : Statement × List Stored} :
    Runs (v.prepare sql args) s pair t ↔ v.prepared s.connection sql args = .ok pair ∧ t = s :=
  runs_iff (prepare_run v sql args s)

theorem runs_discover {sql : String} {args : Arguments} {columns : List ColumnInfo} :
    Runs (v.discover sql args) s columns t ↔
      ∃ prepared values, v.prepared s.connection sql args = .ok (prepared, values) ∧
        (s.connection.describe sql prepared values).1 = .ok columns ∧
        t = { s with connection := (s.connection.describe sql prepared values).2 } := by
  rw [runs_iff ((discover_run v sql args s).trans rfl)]
  cases v.prepared s.connection sql args with
  | error e => simp
  | ok pair =>
      obtain ⟨prepared, values⟩ := pair
      simp only [mapError_eq_ok, Except.ok.injEq, Prod.mk.injEq]
      constructor
      · exact fun described => ⟨prepared, values, ⟨rfl, rfl⟩, described⟩
      · rintro ⟨_, _, ⟨rfl, rfl⟩, described⟩
        exact described

theorem runs_checkObject {typed : TypedStatement} {args : List String} {call : CheckCall}
    {checked : Checked} :
    Runs (v.checkObject site typed args call) s checked t ↔
      ∃ d, note site (v.checker.check s.connection call) = .ok d ∧ t = v.asked call s ∧
        checked = { statement := { typed with args }, note := some d } := by
  unfold checkObject
  simp only [runs_bind, runs_askChecker, runs_pure]
  constructor
  · rintro ⟨d, _, ⟨answered, rfl⟩, rfl, rfl⟩
    exact ⟨d, answered, rfl, rfl⟩
  · rintro ⟨d, answered, rfl, rfl⟩
    exact ⟨d, _, ⟨answered, rfl⟩, rfl, rfl⟩

/-- The text of a mutation as it is prepared. -/
def mutationText (v : Validator) (convention : Convention) (sql : String) :
    Except ValidationError String :=
  match convention with
  | .call => (v.dialect.callSql sql).mapError .ofAccess
  | _ => .ok sql

theorem runs_checkMutation {typed : TypedStatement} {sql : String} {args : Arguments}
    {checked : Checked} :
    Runs (v.checkMutation site typed sql args) s checked t ↔
      ∃ d text pair, note site (v.checker.check s.connection (.sql sql)) = .ok d ∧
        v.mutationText site.statement.convention sql = .ok text ∧
        v.prepared s.connection text args = .ok pair ∧ t = v.asked (.sql sql) s ∧
        checked = { statement := typed, note := some d } := by
  have kept : (v.asked (.sql sql) s).connection = s.connection := by
    unfold asked
    split <;> rfl
  obtain ⟨text, whole, spec⟩ : ∃ text : Checking String,
      v.checkMutation site typed sql args = (v.askChecker site (.sql sql) >>= fun d =>
        text >>= fun text => v.prepare text args >>= fun _ =>
          pure { statement := typed, note := some d }) ∧
      ∀ s a t, Runs text s a t ↔
        v.mutationText site.statement.convention sql = .ok a ∧ t = s := by
    unfold checkMutation mutationText
    cases site.statement.convention with
    | call => exact ⟨_, rfl, fun _ _ _ => runs_lift⟩
    | _ => exact ⟨_, rfl, fun s a t => runs_pure.trans (by rw [Except.ok.injEq, eq_comm])⟩
  rw [whole]
  simp only [runs_bind, runs_askChecker, spec, runs_prepare, runs_pure]
  constructor
  · rintro ⟨d, _, ⟨answered, rfl⟩, text, _, ⟨found, rfl⟩, pair, _, ⟨prepared, rfl⟩, rfl, rfl⟩
    exact ⟨d, text, pair, answered, found, kept ▸ prepared, rfl, rfl⟩
  · rintro ⟨d, text, pair, answered, found, prepared, rfl, rfl⟩
    exact ⟨d, _, ⟨answered, rfl⟩, text, _, ⟨found, rfl⟩, pair, _,
      ⟨kept.symm ▸ prepared, rfl⟩, rfl, rfl⟩

theorem checkRow_run (v : Validator) (site : Site) (typed : TypedStatement) (row : Ident)
    (columns : List ColumnInfo) (s : CheckState) :
    ((v.checkRow site typed row columns).run).run s =
      match v.checkFields (site.unit.qualified row.name)
          ((site.unit.row? row.name).bind (·.fields))
          (site.statement.convention == .metadata) columns with
      | .error e => (.error e, s)
      | .ok _ =>
          match s.shapes.record (site.unit.qualified row.name)
              (site.statement.convention == .metadata) columns site.location with
          | .error e => (.error (.ofShape e), s)
          | .ok (_, shapes) =>
              (.ok { statement := { typed with row := some row.name } }, { s with shapes }) := by
  unfold checkRow
  rw [run_bind, run_lift]
  cases v.checkFields _ _ _ columns with
  | error e => rfl
  | ok fits =>
      simp only [run_bind, run_get, run_lift]
      cases s.shapes.record _ _ _ _ with
      | error e => rfl
      | ok pair => rfl

theorem runs_checkRow {typed : TypedStatement} {row : Ident} {columns : List ColumnInfo}
    {checked : Checked} :
    Runs (v.checkRow site typed row columns) s checked t ↔
      v.checkFields (site.unit.qualified row.name)
          ((site.unit.row? row.name).bind (·.fields))
          (site.statement.convention == .metadata) columns = .ok () ∧
        ∃ shape shapes, s.shapes.record (site.unit.qualified row.name)
            (site.statement.convention == .metadata) columns site.location =
              .ok (shape, shapes) ∧
          t = { s with shapes } ∧
          checked = { statement := { typed with row := some row.name } } := by
  rw [runs_iff ((checkRow_run v site typed row columns s).trans rfl)]
  cases v.checkFields _ _ _ columns with
  | error e => simp
  | ok fits =>
      simp only [true_and]
      cases s.shapes.record _ _ _ site.location with
      | error e => simp
      | ok pair =>
          obtain ⟨shape, shapes⟩ := pair
          simp only [Except.ok.injEq, Prod.mk.injEq]
          constructor
          · rintro ⟨rfl, rfl⟩
            exact ⟨shape, shapes, ⟨rfl, rfl⟩, rfl, rfl⟩
          · rintro ⟨_, _, ⟨rfl, rfl⟩, rfl, rfl⟩
            exact ⟨rfl, rfl⟩

/-- The type of a value that a statement reads, and the edit that writes it. -/
def valueChecked (v : Validator) (site : Site) (typed : TypedStatement)
    (declared : Option ValueType) (span : Span) (columns : List ColumnInfo) :
    Except ValidationError Checked := do
  let type ← DeclaredValue.check v.registry site.statement.convention site.owner declared columns
  pure {
    statement := { typed with valueType := some type }
    edit := if declared.isSome then none else some ⟨span, type.name⟩ }

theorem runs_checkQuery {typed : TypedStatement} {sql : String} {args : Arguments}
    {checked : Checked} :
    Runs (v.checkQuery site typed sql args) s checked t ↔
      ∃ columns u, Runs (v.discover sql args) s columns u ∧
        match site.statement.target with
        | .row row => Runs (v.checkRow site typed row columns) u checked t
        | .value declared span =>
            v.valueChecked site typed declared span columns = .ok checked ∧ t = u
        | .none => checked = { statement := typed } ∧ t = u := by
  unfold checkQuery
  rw [runs_bind]
  refine exists_congr fun columns => exists_congr fun u => and_congr_right fun _ => ?_
  cases site.statement.target with
  | row row => exact Iff.rfl
  | none => exact runs_pure
  | value declared span =>
      simp only [runs_bind, runs_lift, runs_pure]
      unfold valueChecked
      cases DeclaredValue.check v.registry site.statement.convention site.owner declared
          columns with
      | error e => simp [bind, Except.bind]
      | ok type =>
          simp only [bind, Except.bind, pure, Except.pure, Except.ok.injEq]
          constructor
          · rintro ⟨_, _, ⟨rfl, rfl⟩, rfl, rfl⟩
            exact ⟨rfl, rfl⟩
          · rintro ⟨rfl, rfl⟩
            exact ⟨type, t, ⟨rfl, rfl⟩, rfl, rfl⟩

/-- What is known of a statement before it is checked. -/
def typedStart (s : StatementDecl) : TypedStatement :=
  { convention := s.convention.keyword, line := s.line, object := s.object.map (·.name) }

variable {params : ParamTable} {checked : Checked}

theorem runs_statement_proc (convention : site.statement.convention = .proc) :
    Runs (v.statement params site) s checked t ↔
      ∃ name args types, objectName site.statement = .ok name ∧
        site.method.argumentNames (site.statement.args.getD []) = .ok args ∧
        args.mapM params.typeOf = .ok types ∧
        Runs (v.checkObject site (typedStart site.statement) args (.procedure name types))
          s checked t := by
  unfold statement
  dsimp only
  rw [convention]
  simp only [runs_bind, runs_lift]
  constructor
  · rintro ⟨name, _, ⟨named, rfl⟩, args, _, ⟨resolved, rfl⟩, types, _, ⟨known, rfl⟩, rest⟩
    rw [← convention] at rest
    exact ⟨name, args, types, named, resolved, known, rest⟩
  · rintro ⟨name, args, types, named, resolved, known, rest⟩
    unfold typedStart at rest
    rw [convention] at rest
    exact ⟨name, _, ⟨named, rfl⟩, args, _, ⟨resolved, rfl⟩, types, _, ⟨known, rfl⟩, rest⟩

theorem runs_statement_nextval (convention : site.statement.convention = .nextval) :
    Runs (v.statement params site) s checked t ↔
      ∃ name, objectName site.statement = .ok name ∧
        Runs (v.checkObject site (typedStart site.statement) [] (.sequence name)) s checked t := by
  unfold statement typedStart
  dsimp only
  rw [convention]
  simp only [runs_bind, runs_lift]
  constructor
  · rintro ⟨name, _, ⟨named, rfl⟩, rest⟩
    exact ⟨name, named, rest⟩
  · rintro ⟨name, named, rest⟩
    exact ⟨name, _, ⟨named, rfl⟩, rest⟩

theorem runs_statement_sql (noProc : site.statement.convention ≠ .proc)
    (noNextval : site.statement.convention ≠ .nextval) :
    Runs (v.statement params site) s checked t ↔
      ∃ text q args, site.statement.sql = some text ∧ Query.parse text.text = .ok q ∧
        Arguments.ofStatement v.registry params site.method site.statement q = .ok args ∧
        Runs (if site.statement.convention.isMutation then
            v.checkMutation site
              { typedStart site.statement with sql := some q.sql, args := args.names } q.sql args
          else
            v.checkQuery site
              { typedStart site.statement with sql := some q.sql, args := args.names } q.sql args)
          s checked t := by
  unfold statement typedStart
  dsimp only
  split
  · exact absurd ‹_› noProc
  · exact absurd ‹_› noNextval
  · cases site.statement.sql with
    | none => simp [not_runs_throw]
    | some text =>
        simp only [runs_bind, runs_lift, mapError_eq_ok]
        constructor
        · rintro ⟨q, _, ⟨parsed, rfl⟩, args, _, ⟨bound, rfl⟩, rest⟩
          exact ⟨text, q, args, rfl, parsed, bound, rest⟩
        · rintro ⟨_, q, args, same, parsed, bound, rest⟩
          cases same
          exact ⟨q, _, ⟨parsed, rfl⟩, args, _, ⟨bound, rfl⟩, rest⟩

end Validator

end SqlUnits
