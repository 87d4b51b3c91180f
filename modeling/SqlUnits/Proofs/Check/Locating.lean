import SqlUnits.Proofs.Check.Execution
import SqlUnits.Proofs.Check.Gathering
import SqlUnits.Proofs.Unit.Standing
/-!
Where failures are located. Every failure of a unit has one construct of its text at fault, and is
located at the line on which that stands; a unit is looked for where its name is.
-/

namespace SqlUnits

theorem mapError_eq_error {f : ε → ε'} {x : Except ε α} {e' : ε'} :
    x.mapError f = .error e' ↔ ∃ e, x = .error e ∧ e' = f e := by
  cases x with
  | error e => simp [mapError_error, eq_comm]
  | ok a => simp [mapError_ok]

theorem foldlM_eq_error {f : γ → α → Except ε γ} {as : List α} {c : γ} {e : ε}
    (failed : as.foldlM f c = .error e) : ∃ a ∈ as, ∃ d, f d a = .error e := by
  induction as generalizing c with
  | nil => cases failed
  | cons a as ih =>
      rw [List.foldlM_cons] at failed
      cases one : f c a with
      | error e' =>
          rw [one] at failed
          cases failed
          exact ⟨a, .head as, c, one⟩
      | ok d =>
          rw [one] at failed
          obtain ⟨b, member, d', refused⟩ := ih failed
          exact ⟨b, .tail a member, d', refused⟩

/-- A computation throws, and leaves a state. -/
def Fails (x : ExceptT ε (StateM σ) α) (s : σ) (e : ε) (t : σ) : Prop :=
  (x.run).run s = (.error e, t)

section

variable {ε ε' : Type} {σ α β : Type} {s t u : σ} {e : ε}

theorem fails_iff {x : ExceptT ε (StateM σ) α} {result : Except ε α}
    (outcome : (x.run).run s = (result, u)) : Fails x s e t ↔ result = .error e ∧ t = u := by
  unfold Fails
  rw [outcome]
  constructor
  · intro same
    cases same
    exact ⟨rfl, rfl⟩
  · rintro ⟨rfl, rfl⟩
    rfl

theorem not_fails_pure {a : α} : ¬Fails (pure a : ExceptT ε (StateM σ) α) s e t := by
  intro fails
  have outcome : ((pure a : ExceptT ε (StateM σ) α).run).run s = (.ok a, s) := rfl
  cases ((fails_iff outcome).1 fails).1

/-- The first part throws, or the second one does once the first has succeeded. -/
theorem fails_bind {x : ExceptT ε (StateM σ) α} {k : α → ExceptT ε (StateM σ) β} :
    Fails (x >>= k) s e u ↔ Fails x s e u ∨ ∃ a t, Runs x s a t ∧ Fails (k a) t e u := by
  unfold Fails Runs
  rw [run_bind]
  rcases (x.run).run s with ⟨result, t⟩
  cases result with
  | error e' =>
      constructor
      · intro same
        cases same
        exact .inl rfl
      · rintro (same | ⟨_, _, same, _⟩)
        · cases same
          rfl
        · cases same
  | ok a =>
      refine ⟨fun second => .inr ⟨a, t, rfl, second⟩, ?_⟩
      rintro (same | ⟨_, _, same, second⟩)
      · cases same
      · cases same
        exact second

theorem fails_adapt {f : ε → ε'} {x : ExceptT ε (StateM σ) α} {e' : ε'} :
    Fails (ExceptT.adapt f x) s e' t ↔ ∃ e, Fails x s e t ∧ e' = f e := by
  rw [fails_iff (run_adapt f x s), mapError_eq_error]
  constructor
  · rintro ⟨⟨e, result, rfl⟩, rfl⟩
    exact ⟨e, Prod.ext result rfl, rfl⟩
  · rintro ⟨e, fails, rfl⟩
    have whole : (x.run).run s = (.error e, t) := fails
    rw [whole]
    exact ⟨⟨e, rfl, rfl⟩, rfl⟩

/-- A fold throws at one of its elements. -/
theorem fails_foldlM {γ : Type} {f : γ → α → ExceptT ε (StateM σ) γ} {as : List α} {c : γ}
    (fails : Fails (as.foldlM f c) s e u) :
    ∃ before a after d t, as = before ++ a :: after ∧ Runs (before.foldlM f c) s d t ∧
      Fails (f d a) t e u := by
  induction as generalizing c s with
  | nil => exact absurd fails not_fails_pure
  | cons a as ih =>
      rw [List.foldlM_cons] at fails
      rcases fails_bind.1 fails with here | ⟨d, t, first, others⟩
      · exact ⟨[], a, as, c, s, rfl, runs_pure.2 ⟨rfl, rfl⟩, here⟩
      · obtain ⟨before, b, after, d', t', rfl, runs, here⟩ := ih others
        refine ⟨a :: before, b, after, d', t', rfl, ?_, here⟩
        rw [List.foldlM_cons]
        exact runs_bind.2 ⟨d, t, first, runs⟩

end

theorem fails_lift {result : Except ValidationError α} {s t : CheckState} {e : ValidationError} :
    Fails (Validator.lift result) s e t ↔ result = .error e ∧ t = s := by
  rw [fails_iff (run_lift result s)]

/-- A part of a unit that can be at fault. -/
inductive Construct where
  | declaration
  | param (p : ParamDecl)
  | statement (s : StatementDecl)

/-- The line at which failures of a construct are located. -/
def Construct.line (unit : SourceUnit) : Construct → Nat
  | declaration => unit.line
  | param p => p.line
  | statement s => s.line

namespace Validator

variable {v : Validator} {unit : SourceUnit} {method : MethodDecl} {connections : ConnectionSource}
  {run : RunRecord} {failure : UnitFailure} {s t : CheckState} {u : ValidatedUnit}

/-- The check of the methods of a unit begins, with the types of its parameters. -/
inductive Begins (v : Validator) (connections : ConnectionSource) (unit : SourceUnit)
    (run : RunRecord) : ParamTable → CheckState → Prop
  | opened {table : ParamTable} {connection : Connection} {stored : Database} :
      Inference.ofUnit unit v.registry = .ok table →
      connections.connect (run.stored.getD {}) = (.ok connection, stored) →
      Begins v connections unit run table
        { connection, shapes := run.shapes, checks := run.checks }

/-- The check of a unit gets to a method, as all methods before it pass. -/
inductive Arrives (v : Validator) (connections : ConnectionSource) (unit : SourceUnit)
    (run : RunRecord) (m : MethodDecl) (u : ValidatedUnit) (s : CheckState) : Prop
  | methods {table : ParamTable} {start : CheckState} {earlier later : List MethodDecl} :
      Begins v connections unit run table start → unit.methods = earlier ++ m :: later →
      Runs (earlier.foldlM (v.validateMethod unit)
        { unit := unit.name.name, path := unit.path, params := table }) start u s →
      Arrives v connections unit run m u s

/-- It gets to a statement, as all statements before it pass. -/
inductive Reaches (v : Validator) (connections : ConnectionSource) (unit : SourceUnit)
    (run : RunRecord) (m : MethodDecl) (st : StatementDecl)
    (draft : ValidatedUnit × List TypedStatement) (s : CheckState) : Prop
  | statements {u : ValidatedUnit} {start : CheckState} {earlier later : List StatementDecl} :
      Arrives v connections unit run m u start → m.statements = earlier ++ st :: later →
      Runs (earlier.foldlM (v.validateStatement unit m) (u, [])) start draft s →
      Reaches v connections unit run m st draft s

/-- What fails a unit, and the construct at fault. -/
inductive Blames (v : Validator) (connections : ConnectionSource) (unit : SourceUnit)
    (run : RunRecord) (failure : UnitFailure) : Construct → Prop
  | inferred {m : MethodDecl} {p : ParamDecl} {table : ParamTable} : m ∈ unit.methods →
      p ∈ m.params → Inference.resolveParam unit v.registry table (m, p) = .error failure →
      Blames v connections unit run failure (.param p)
  | unopened {e : DriverError} : (connections.connect (run.stored.getD {})).1 = .error e →
      failure = cannotOpen unit e → Blames v connections unit run failure .declaration
  | checked {m : MethodDecl} {st : StatementDecl} {draft : ValidatedUnit × List TypedStatement}
      {s t : CheckState} : Reaches v connections unit run m st draft s →
      Fails (v.statement draft.1.params ⟨unit, m, st⟩) s failure.error t →
      failure.stack = Site.stack ⟨unit, m, st⟩ "statement" →
      Blames v connections unit run failure (.statement st)
  | written {m : MethodDecl} {st : StatementDecl} {draft : ValidatedUnit × List TypedStatement}
      {s : CheckState} {edit : Edit} {e : EditError} : Reaches v connections unit run m st draft s →
      draft.1.edits.add edit = .error e →
      failure = ⟨.configuration e.message, Site.stack ⟨unit, m, st⟩ "rewrite"⟩ →
      Blames v connections unit run failure (.statement st)
  | typed {m : MethodDecl} {p : ParamDecl} {u : ValidatedUnit} {s : CheckState}
      {edits : EditList} {edit : Edit} {e : EditError} : Arrives v connections unit run m u s →
      p ∈ m.params → edits.add edit = .error e →
      failure = ⟨.configuration e.message,
        [Frame.engine "rewrite", ⟨unit.name.name, unit.path, p.line⟩]⟩ →
      Blames v connections unit run failure (.param p)

theorem Arrives.member (arrives : Arrives v connections unit run method u s) :
    method ∈ unit.methods := by
  obtain ⟨_, whole, _⟩ := arrives
  simp [whole]

theorem Reaches.member {st : StatementDecl} {draft : ValidatedUnit × List TypedStatement}
    (reaches : Reaches v connections unit run method st draft s) :
    method ∈ unit.methods ∧ st ∈ method.statements := by
  obtain ⟨arrives, whole, _⟩ := reaches
  exact ⟨arrives.member, by simp [whole]⟩

theorem fails_within {α : Type} {stack : List Frame} {x : Checking α} :
    Fails (Validating.within stack x) s failure t ↔
      ∃ e, Fails x s e t ∧ failure = ⟨e, stack⟩ :=
  fails_adapt

theorem fails_addEdit {stack : List Frame} {edits : EditList} {edit : Edit} :
    Fails (Validating.addEdit stack edits edit) s failure t ↔
      ∃ e, edits.add edit = .error e ∧ failure = ⟨.configuration e.message, stack⟩ ∧ t = s := by
  unfold Validating.addEdit
  rw [fails_within]
  simp only [fails_lift, mapError_eq_error]
  constructor
  · rintro ⟨_, ⟨⟨e, refused, rfl⟩, rfl⟩, rfl⟩
    exact ⟨e, refused, rfl, rfl⟩
  · rintro ⟨e, refused, rfl, rfl⟩
    exact ⟨_, ⟨⟨e, refused, rfl⟩, rfl⟩, rfl⟩

theorem blames_validateStatement {draft : ValidatedUnit × List TypedStatement}
    {st : StatementDecl} (reaches : Reaches v connections unit run method st draft s)
    (fails : Fails (v.validateStatement unit method draft st) s failure t) :
    Blames v connections unit run failure (.statement st) := by
  obtain ⟨u, done⟩ := draft
  unfold validateStatement at fails
  dsimp only at fails
  rcases fails_bind.1 fails with here | ⟨checked, s', _, rest⟩
  · obtain ⟨e, throws, rfl⟩ := fails_within.1 here
    exact .checked reaches throws rfl
  · cases wanted : checked.edit with
    | none =>
        simp only [wanted, pure_bind] at rest
        exact absurd rest not_fails_pure
    | some edit =>
        simp only [wanted] at rest
        rcases fails_bind.1 rest with here | ⟨_, _, _, rest⟩
        · obtain ⟨e, refused, rfl, _⟩ := fails_addEdit.1 here
          exact .written reaches refused rfl
        · exact absurd rest not_fails_pure

theorem blames_addParamEdit {edits : EditList} {p : ParamDecl × TypedParam} {s' : CheckState}
    (arrives : Arrives v connections unit run method u s) (inside : p.1 ∈ method.params)
    (fails : Fails (addParamEdit unit edits p) s' failure t) :
    Blames v connections unit run failure (.param p.1) := by
  unfold addParamEdit at fails
  split at fails
  · exact absurd fails not_fails_pure
  · obtain ⟨e, refused, same, _⟩ := fails_addEdit.1 fails
    exact .typed arrives inside refused same

/-- The types of parameters stay what they are while statements are checked. -/
theorem params_of_runs {draft last : ValidatedUnit × List TypedStatement}
    {statements : List StatementDecl}
    (runs : Runs (statements.foldlM (v.validateStatement unit method) draft) s last t) :
    draft.1.params = last.1.params := by
  refine bounded_of_runs_foldlM (fun draft _ => draft.1.params = last.1.params) ?_ runs rfl
  intro draft st s next t one same
  obtain ⟨_, _, _, _, rfl⟩ := runs_validateStatement.1 one
  exact same

theorem method_params {d : ValidatedUnit} (runs : Runs (v.validateMethod unit u method) s d t) :
    u.params = d.params := by
  obtain ⟨w, _, _, _, _, checks, _, _, rfl⟩ := runs_validateMethod.1 runs
  exact params_of_runs checks

theorem typedParams_ne_error {table : ParamTable}
    (inferred : Inference.ofUnit unit v.registry = .ok table) (member : method ∈ unit.methods)
    {e : ValidationError} : method.params.mapM (typedParam table) ≠ .error e := by
  intro failed
  obtain ⟨p, inside, one⟩ := mapM_eq_error failed
  obtain ⟨type, known, _⟩ := Inference.ofUnit_get? inferred member inside
  have typed : typedParam table p = .ok ⟨p.name.name, type⟩ := typedParam_eq_ok.2 ⟨rfl, known⟩
  rw [typed] at one
  cases one

theorem Arrives.inferred (arrives : Arrives v connections unit run method u s) :
    Inference.ofUnit unit v.registry = .ok u.params := by
  obtain ⟨⟨inferred, _⟩, _, runs⟩ := arrives
  rw [inferred, Except.ok.injEq]
  exact bounded_of_runs_foldlM (fun d _ => d.params = u.params)
    (fun _ _ _ _ _ one same => (method_params one).trans same) runs rfl

theorem blames_validateMethod (arrives : Arrives v connections unit run method u s)
    (fails : Fails (v.validateMethod unit u method) s failure t) :
    ∃ construct, Blames v connections unit run failure construct := by
  unfold validateMethod at fails
  rcases fails_bind.1 fails with here | ⟨⟨w, statements⟩, s', checks, rest⟩
  · obtain ⟨before, st, after, draft, s', whole, runs, one⟩ := fails_foldlM here
    exact ⟨_, blames_validateStatement (.statements arrives whole runs) one⟩
  · rcases fails_bind.1 rest with here | ⟨params, s', typed, rest⟩
    · obtain ⟨e, fails, _⟩ := fails_within.1 here
      have same : u.params = w.params := params_of_runs checks
      have inferred := same ▸ arrives.inferred
      exact absurd (fails_lift.1 fails).1 (typedParams_ne_error inferred arrives.member)
    · rcases fails_bind.1 rest with here | ⟨edits, s', _, rest⟩
      · obtain ⟨before, p, after, edits, s', whole, _, one⟩ := fails_foldlM here
        have paired : p ∈ method.params.zip params := by simp [whole]
        exact ⟨_, blames_addParamEdit arrives (List.of_mem_zip paired).1 one⟩
      · exact absurd rest not_fails_pure

theorem blames_validateMethods {table : ParamTable}
    (begins : Begins v connections unit run table s)
    (fails : Fails (v.validateMethods unit table) s failure t) :
    ∃ construct, Blames v connections unit run failure construct := by
  unfold validateMethods at fails
  rcases fails_bind.1 fails with here | ⟨_, _, _, rest⟩
  · obtain ⟨before, method, after, u, s', whole, runs, one⟩ := fails_foldlM here
    exact blames_validateMethod (.methods begins whole runs) one
  · exact absurd rest not_fails_pure

theorem blames_ofUnit (failed : Inference.ofUnit unit v.registry = .error failure) :
    ∃ m ∈ unit.methods, ∃ p ∈ m.params, ∃ table,
      Inference.resolveParam unit v.registry table (m, p) = .error failure := by
  obtain ⟨⟨m, p⟩, among, table, refused⟩ := foldlM_eq_error failed
  obtain ⟨m', member, paired⟩ := List.mem_flatMap.1 among
  obtain ⟨p', inside, same⟩ := List.mem_map.1 paired
  cases same
  exact ⟨_, member, _, inside, table, refused⟩

/-- Every failure has something to blame. -/
theorem blames_validate (failed : (v.validate connections unit run).1 = .error failure) :
    ∃ construct, Blames v connections unit run failure construct := by
  unfold validate at failed
  cases inferred : Inference.ofUnit unit v.registry with
  | error failure' =>
      simp only [inferred] at failed
      cases failed
      obtain ⟨m, member, p, inside, table, refused⟩ := blames_ofUnit inferred
      exact ⟨_, .inferred member inside refused⟩
  | ok table =>
      simp only [inferred] at failed
      cases opened : connections.connect (run.stored.getD {}) with
      | mk result stored =>
          cases result with
          | error e =>
              simp only [opened] at failed
              cases failed
              exact ⟨_, .unopened (congrArg Prod.fst opened) rfl⟩
          | ok connection =>
              simp only [opened] at failed
              exact blames_validateMethods (.opened inferred opened) (Prod.ext failed rfl)

/-! Frames. -/

/-- No frame of a unit is taken for one of the engine. -/
structure Unmarked (unit : SourceUnit) : Prop where
  name : unit.name.name ≠ Frame.marker
  methods : ∀ m ∈ unit.methods, m.name.name ≠ Frame.marker
  owners : ∀ m ∈ unit.methods, unit.methodOwner m ≠ Frame.marker

/-- The frame around that of the engine is that of the construct at fault. -/
theorem Blames.location {construct : Construct} (unmarked : Unmarked unit)
    (blames : v.Blames connections unit run failure construct) :
    failure.location = some (.atLine unit.path (construct.line unit)) := by
  have unit_ := unmarked.name
  cases blames with
  | inferred member _ refused =>
      have owner := unmarked.owners _ member
      obtain ⟨e, _, rfl⟩ := mapError_eq_error.1 refused
      simp [UnitFailure.location, locate, afterLast?, Inference.stack, Frame.engine, owner, unit_,
        Frame.location, Construct.line]
  | unopened _ same =>
      simp [same, UnitFailure.location, locate, afterLast?, cannotOpen, Frame.engine, unit_,
        Frame.location, Construct.line]
  | checked reaches _ stack =>
      have owner := unmarked.owners _ reaches.member.1
      simp [stack, UnitFailure.location, locate, afterLast?, Site.stack, Site.owner, Frame.engine,
        owner, unit_, Frame.location, Construct.line]
  | written reaches _ same =>
      have owner := unmarked.owners _ reaches.member.1
      simp [same, UnitFailure.location, locate, afterLast?, Site.stack, Site.owner, Frame.engine,
        owner, unit_, Frame.location, Construct.line]
  | typed _ _ _ same =>
      simp [same, UnitFailure.location, locate, afterLast?, Frame.engine, unit_, Frame.location,
        Construct.line]

end Validator

open Scanner

/-- A construct begins at a place. Its line is that of the place behind a further text, which is
empty but for the declaration of a unit: there it leads to the name. -/
inductive Construct.StandsAt (unit : SourceUnit) (lines : LineIndex) (c : Scanner.Cursor) :
    Construct → Text → Prop
  | declaration {keyword : Ident} {skipped : Text} {m d : Scanner.Cursor} :
      Word c keyword m → keyword.name = "unit" → Stretch c skipped m → Word m unit.name d →
      StandsAt unit lines c .declaration skipped
  | param {p : ParamDecl} {d : Scanner.Cursor} : ParamAt lines c p d →
      StandsAt unit lines c (.param p) []
  | statement {s : StatementDecl} {d : Scanner.Cursor} : StatementAt lines c s d →
      StandsAt unit lines c (.statement s) []

/-- A failure is located at the line of a construct, which stands behind some of the source. -/
structure UnitFailure.LocatedAt (failure : UnitFailure) (unit : SourceUnit) (construct : Construct)
    (before skipped : Text) : Prop where
  stands : ∃ c, Stretch ⟨0, unit.source.toList⟩ before c ∧
    construct.StandsAt unit (.ofText unit.source.toList) c skipped
  location : failure.location =
    some (.atLine unit.path (Text.newlines before + Text.newlines skipped + 1))

namespace SourceUnit

variable {path source : String} {unit : SourceUnit}

/-- The engine's marker is no identifier, nor two of them with colons between. -/
theorem scan_unmarked (read : scan path source = .ok unit) : Validator.Unmarked unit := by
  have noName {chars : String} (isName : IsName chars.toList) : chars ≠ Frame.marker := by
    rintro rfl
    exact absurd isName (by decide)
  refine ⟨noName (scan_isName read), fun m member => ?_, fun m member same => ?_⟩
  · exact noName ((scan_placed read).methods m member).name
  · have colon : ':' ∈ (unit.methodOwner m).toList := by simp [methodOwner]
    rw [same] at colon
    exact absurd colon (by decide)

/-- The line of a construct counts the newlines of what it stands behind. -/
theorem scan_line (read : scan path source = .ok unit) {construct : Construct}
    {before skipped : Text} {c : Scanner.Cursor} (behind : Stretch ⟨0, source.toList⟩ before c)
    (stands : construct.StandsAt unit (.ofText source.toList) c skipped) :
    construct.line unit = Text.newlines before + Text.newlines skipped + 1 := by
  cases stands with
  | declaration _ _ further name =>
      obtain ⟨_, _, _, _, _, _, rfl⟩ := scan_eq_ok.1 read
      dsimp only [Construct.line] at name ⊢
      rw [name.span, line_of_stretch (behind.trans further), Text.newlines_append]
  | param at_ => exact at_.line_eq.trans (line_of_stretch behind)
  | statement at_ => exact at_.line_eq.trans (line_of_stretch behind)

/-- What is to blame for a failure stands in the source. -/
theorem scan_stands (read : scan path source = .ok unit) {v : Validator}
    {connections : ConnectionSource} {run : RunRecord} {failure : UnitFailure}
    {construct : Construct} (blames : v.Blames connections unit run failure construct) :
    ∃ before skipped c, Stretch ⟨0, source.toList⟩ before c ∧
      construct.StandsAt unit (.ofText source.toList) c skipped := by
  have placed := scan_placed read
  cases blames with
  | inferred member inside _ =>
      obtain ⟨c, d, ⟨before, behind⟩, here⟩ := (placed.methods _ member).params _ inside
      exact ⟨before, [], c, behind, .param here⟩
  | typed arrives inside _ _ =>
      obtain ⟨c, d, ⟨before, behind⟩, here⟩ := (placed.methods _ arrives.member).params _ inside
      exact ⟨before, [], c, behind, .param here⟩
  | checked reaches _ _ | written reaches _ _ =>
      obtain ⟨member, inside⟩ := reaches.member
      obtain ⟨c, d, ⟨before, behind⟩, here⟩ := (placed.methods _ member).statements _ inside
      exact ⟨before, [], c, behind, .statement here⟩
  | unopened _ _ =>
      obtain ⟨c, d, ⟨before, behind⟩, keyword, m, word, named, name⟩ := placed.name _ rfl
      obtain ⟨skipped, further⟩ := word.before
      exact ⟨before, skipped, c, behind, .declaration word named further name⟩

end SourceUnit

namespace Validator

/-- Every failure of a unit that was read is located, at the construct at fault and in its file. The
line is that on which the construct begins, which for the declaration of the unit is that of its
name; and no name is taken for that of the engine. -/
theorem validate_located {path source : String} {unit : SourceUnit}
    (read : SourceUnit.scan path source = .ok unit) (v : Validator) :
    Unmarked unit ∧
    (∀ failure, Inference.ofUnit unit v.registry = .error failure →
      ∃ m ∈ unit.methods, ∃ p ∈ m.params, ∃ table before,
        Inference.resolveParam unit v.registry table (m, p) = .error failure ∧
        failure.LocatedAt unit (.param p) before []) ∧
    ∀ connections run failure, (v.validate connections unit run).1 = .error failure →
      ∃ construct before skipped, v.Blames connections unit run failure construct ∧
        failure.LocatedAt unit construct before skipped := by
  have unmarked := SourceUnit.scan_unmarked read
  have same := SourceUnit.scan_source read
  have located {connections : ConnectionSource} {run : RunRecord} {failure : UnitFailure}
      {construct : Construct} (blames : v.Blames connections unit run failure construct) :
      ∃ before skipped, failure.LocatedAt unit construct before skipped := by
    obtain ⟨before, skipped, c, behind, stands⟩ := SourceUnit.scan_stands read blames
    refine ⟨before, skipped, ⟨c, same ▸ behind, same ▸ stands⟩, ?_⟩
    rw [blames.location unmarked, SourceUnit.scan_line read behind stands]
  refine ⟨unmarked, fun failure failed => ?_, fun connections run failure failed => ?_⟩
  · obtain ⟨m, member, p, inside, table, refused⟩ := blames_ofUnit failed
    have blames : v.Blames (.apart (.ok {})) unit {} failure (.param p) :=
      .inferred member inside refused
    obtain ⟨before, skipped, at_⟩ := located blames
    obtain ⟨c, _, stands⟩ := at_.stands
    cases stands with
    | param _ => exact ⟨m, member, p, inside, table, before, refused, at_⟩
  · obtain ⟨construct, blames⟩ := blames_validate failed
    obtain ⟨before, skipped, at_⟩ := located blames
    exact ⟨construct, before, skipped, blames, at_⟩

theorem validate_located_placeholder :
    let v : Validator := { registry := .builtins, checker := .sqlite }
    let source := "unit U\n\n// read\nfn m(id: int) \x7b\n  value long \x7b SELECT ? \x7d\n\x7d\n"
    ∃ unit failure construct before skipped,
      SourceUnit.scan "u.sqlp" source = .ok unit ∧
      v.Blames (.apart (.ok {})) unit {} failure construct ∧
      failure.LocatedAt unit construct before skipped ∧
      failure.location = some (.atLine "u.sqlp" 5) := by
  intro v source
  have located : (SourceUnit.scan "u.sqlp" source).toOption.bind (fun unit =>
      match (v.validate (.apart (.ok {})) unit {}).1 with
      | .error failure => failure.location
      | .ok _ => none) = some (.atLine "u.sqlp" 5) := by decide +kernel
  cases read : SourceUnit.scan "u.sqlp" source with
  | error e =>
      rw [read] at located
      cases located
  | ok unit =>
      rw [read] at located
      dsimp only [Except.toOption, Option.bind_some] at located
      split at located
      · rename_i failure failed
        obtain ⟨construct, before, skipped, blames, at_⟩ :=
          (validate_located read v).2.2 (.apart (.ok {})) {} failure failed
        exact ⟨unit, failure, construct, before, skipped, rfl, blames, at_, located⟩
      · cases located

/-- The declaration of a unit may begin on the first line, and be located on the second. -/
theorem validate_unopened_below :
    let v : Validator := { registry := .builtins, checker := .sqlite }
    let source := "unit\nU\n"
    ∃ unit e d, SourceUnit.scan "u.sqlp" source = .ok unit ∧
      UnitAt ⟨0, source.toList⟩ unit.name d ∧
      (v.validate (.apart (.error e)) unit {}).1 = .error (cannotOpen unit e) ∧
      (cannotOpen unit e).location = some (.atLine "u.sqlp" 2) := by
  intro v source
  let unit : SourceUnit := ⟨"u.sqlp", source, ⟨"U", ⟨5, 6⟩⟩, 2, [], []⟩
  have keyword : Word ⟨0, source.toList⟩ ⟨"unit", ⟨0, 4⟩⟩ ⟨5, ['U', '\n']⟩ :=
    ⟨by decide, by decide, "unit\n".toList, ⟨by decide, by decide⟩, ['\n'], by decide,
      ⟨⟨by decide, nofun⟩, fun _ => rfl⟩, by decide⟩
  have name : Word ⟨5, ['U', '\n']⟩ unit.name ⟨7, []⟩ :=
    ⟨by decide, by decide, ['U', '\n'], ⟨rfl, by decide⟩, ['\n'], by decide,
      ⟨trivial, fun _ => rfl⟩, by decide⟩
  have read : SourceUnit.scan "u.sqlp" source = .ok unit := by
    refine SourceUnit.scan_eq_ok.2 ⟨⟨some unit.name, [], []⟩, ⟨7, []⟩, unit.name, ?_, rfl, rfl, ?_⟩
    · have chars : source.toList = ['u', 'n', 'i', 't', '\n', 'U', '\n'] := by decide
      have settled : Settled source.toList := by
        rw [chars]
        exact ⟨by decide, by decide⟩
      rw [Cursor.skip_of_settled settled]
      exact .more (.unit keyword rfl rfl name) (.done rfl)
    · have line : (LineIndex.ofText source.toList).line 5 = 2 := by decide
      exact congrArg (SourceUnit.mk "u.sqlp" source unit.name · [] []) line.symm
  exact ⟨unit, .cannotOpen "x.db", _, read, ⟨_, _, keyword, rfl, name⟩, rfl, rfl⟩

end Validator

end SqlUnits
