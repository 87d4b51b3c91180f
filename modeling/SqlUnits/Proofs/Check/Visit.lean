import SqlUnits.Check.Unit
/-!
How far checking gets through the statements of a unit, and what that does to its connection. A
computation visits sites in order; one that fails has visited some of the first. And the check of a
unit has each property that its parts have and that composition keeps.
-/

namespace SqlUnits

theorem mapError_ok (f : ε → ε') (a : α) : (Except.ok a : Except ε α).mapError f = .ok a :=
  rfl

theorem mapError_error (f : ε → ε') (e : ε) :
    (Except.error e : Except ε α).mapError f = .error (f e) :=
  rfl

theorem mapError_eq_ok {f : ε → ε'} {x : Except ε α} {a : α} :
    x.mapError f = .ok a ↔ x = .ok a := by
  cases x with
  | error e => simp [mapError_error]
  | ok b => simp [mapError_ok]

/-- What comes of two results one after the other, if something does. -/
theorem bind_result {x : Except ε α} {k : α → Except ε β} {b : β} (done : x >>= k = .ok b) :
    ∃ a, x = .ok a ∧ k a = .ok b := by
  cases x with
  | error e => cases done
  | ok a => exact ⟨a, rfl, done⟩

theorem run_bind (x : ExceptT ε (StateM σ) α) (k : α → ExceptT ε (StateM σ) β) (s : σ) :
    ((x >>= k).run).run s =
      match (x.run).run s with
      | (.ok a, t) => ((k a).run).run t
      | (.error e, t) => (.error e, t) := by
  rw [ExceptT.run_bind, StateT.run_bind]
  rcases (x.run).run s with ⟨result, t⟩
  cases result <;> rfl

theorem run_get (s : σ) : ((get : ExceptT ε (StateM σ) σ).run).run s = (.ok s, s) := rfl

theorem run_set (s t : σ) : ((set t : ExceptT ε (StateM σ) PUnit).run).run s = (.ok ⟨⟩, t) := rfl

theorem run_lift (result : Except ValidationError α) (s : CheckState) :
    ((Validator.lift result).run).run s = (result, s) :=
  rfl

theorem run_adapt (f : ε → ε') (x : ExceptT ε (StateM σ) α) (s : σ) :
    ((ExceptT.adapt f x).run).run s = ((((x.run).run s).1).mapError f, ((x.run).run s).2) :=
  rfl

/-- Whatever comes of a computation, it leaves the connection as it was. -/
def Keeps (x : ExceptT ε (StateM CheckState) α) : Prop :=
  ∀ s, ((x.run).run s).2.connection = s.connection

namespace Keeps

theorem pure (a : α) : Keeps (pure a : ExceptT ε (StateM CheckState) α) :=
  fun _ => rfl

theorem lift (result : Except ValidationError α) : Keeps (Validator.lift result) :=
  fun _ => rfl

theorem bind {x : ExceptT ε (StateM CheckState) α} {k : α → ExceptT ε (StateM CheckState) β}
    (first : Keeps x) (second : ∀ a, Keeps (k a)) : Keeps (x >>= k) := by
  intro s
  have same := first s
  rw [run_bind]
  cases outcome : (x.run).run s with
  | mk result t =>
      rw [outcome] at same
      cases result with
      | error e => exact same
      | ok a => exact (second a t).trans same

theorem adapt {x : ExceptT ε (StateM CheckState) α} (keeps : Keeps x) (f : ε → ε') :
    Keeps (ExceptT.adapt f x) :=
  keeps

theorem foldlM {step : α → β → ExceptT ε (StateM CheckState) α}
    (one : ∀ a b, Keeps (step a b)) : ∀ (bs : List β) (a : α), Keeps (bs.foldlM step a)
  | [], a => pure a
  | b :: bs, a => by
      rw [List.foldlM_cons]
      exact (one a b).bind fun next => foldlM one bs next

end Keeps

/-- Through a computation, a connection takes the probes of some first sites, and those of all
sites if there is a result, which then is as stated. -/
def Visits (probe : Site → Connection → Connection) (sites : List Site) (post : α → Prop)
    (x : ExceptT ε (StateM CheckState) α) : Prop :=
  ∀ s, ∃ done, done <+: sites ∧
    ((x.run).run s).2.connection = done.foldl (fun c site => probe site c) s.connection ∧
    ∀ a, ((x.run).run s).1 = .ok a → done = sites ∧ post a

namespace Visits

variable {probe : Site → Connection → Connection} {sites more : List Site}

theorem pure {post : α → Prop} {a : α} (holds : post a) :
    Visits probe [] post (pure a : ExceptT ε (StateM CheckState) α) := by
  intro s
  refine ⟨[], List.prefix_rfl, rfl, ?_⟩
  intro b result
  cases result
  exact ⟨rfl, holds⟩

theorem ofKeeps {x : ExceptT ε (StateM CheckState) α} (keeps : Keeps x) :
    Visits probe [] (fun _ => True) x := by
  intro s
  exact ⟨[], List.prefix_rfl, keeps s, fun _ _ => ⟨rfl, trivial⟩⟩

theorem bind {mid : α → Prop} {post : β → Prop} {x : ExceptT ε (StateM CheckState) α}
    {k : α → ExceptT ε (StateM CheckState) β} (first : Visits probe sites mid x)
    (second : ∀ a, mid a → Visits probe more post (k a)) :
    Visits probe (sites ++ more) post (x >>= k) := by
  intro s
  obtain ⟨done, initial, connection, whole⟩ := first s
  rw [run_bind]
  cases outcome : (x.run).run s with
  | mk result t =>
      rw [outcome] at connection whole
      cases result with
      | error e =>
          exact ⟨done, initial.trans (List.prefix_append _ _), connection, by simp⟩
      | ok a =>
          obtain ⟨rfl, holds⟩ := whole a rfl
          obtain ⟨next, initial, after, whole⟩ := second a holds t
          refine ⟨done ++ next, (List.prefix_append_right_inj done).2 initial, ?_, ?_⟩
          · rw [List.foldl_append, ← connection]
            exact after
          · intro b result
            obtain ⟨rfl, holds⟩ := whole b result
            exact ⟨rfl, holds⟩

theorem adapt {post : α → Prop} {x : ExceptT ε (StateM CheckState) α}
    (visits : Visits probe sites post x) (f : ε → ε') :
    Visits probe sites post (ExceptT.adapt f x) := by
  intro s
  obtain ⟨done, initial, connection, whole⟩ := visits s
  refine ⟨done, initial, connection, fun a result => whole a ?_⟩
  rw [run_adapt] at result
  cases outcome : ((x.run).run s).1 with
  | error e =>
      rw [outcome] at result
      cases result
  | ok b =>
      rw [outcome] at result
      cases result
      rfl

theorem foldlM (probe : Site → Connection → Connection) (inv : α → Prop)
    {step : α → β → ExceptT ε (StateM CheckState) α} {sitesOf : β → List Site}
    (one : ∀ a b, inv a → Visits probe (sitesOf b) inv (step a b)) :
    ∀ (bs : List β) (a : α), inv a → Visits probe (bs.flatMap sitesOf) inv (bs.foldlM step a)
  | [], _, holds => pure holds
  | b :: bs, a, holds => by
      rw [List.foldlM_cons, List.flatMap_cons]
      exact bind (one a b holds) (fun next holds => foldlM probe inv one bs next holds)

theorem thenStill {mid : α → Prop} {post : β → Prop} {x : ExceptT ε (StateM CheckState) α}
    {k : α → ExceptT ε (StateM CheckState) β} (first : Visits probe sites mid x)
    (second : ∀ a, mid a → Visits probe [] post (k a)) : Visits probe sites post (x >>= k) := by
  have visits := bind first second
  rwa [List.append_nil] at visits

end Visits

/-!
Properties that the whole check of a unit has once its parts have them. The parts are what has to
do with connections and shapes: asking the checker, preparing a statement, and running a query.
-/

/-- A property that computations pass on to what is put together from them. -/
structure Composes (P : ∀ {ε α : Type}, ExceptT ε (StateM CheckState) α → Prop) : Prop where
  pure : ∀ {ε α : Type} (a : α), P (pure a : ExceptT ε (StateM CheckState) α)
  throw : ∀ {ε α : Type} (e : ε), P (throw e : ExceptT ε (StateM CheckState) α)
  bind : ∀ {ε α β : Type} {x : ExceptT ε (StateM CheckState) α}
    {k : α → ExceptT ε (StateM CheckState) β}, P x → (∀ a, P (k a)) → P (x >>= k)
  adapt : ∀ {ε ε' α : Type} {x : ExceptT ε (StateM CheckState) α}, P x → ∀ f : ε → ε',
    P (ExceptT.adapt f x)

/-- The parts of the check of a unit have a property. A statement is prepared to see whether it can be,
if it is not run. -/
structure Validator.HasParts (v : Validator) (unit : SourceUnit)
    (P : ∀ {ε α : Type}, ExceptT ε (StateM CheckState) α → Prop) : Prop where
  ask : ∀ method s call, P (v.askChecker ⟨unit, method, s⟩ call)
  prepare : ∀ sql args (checked : Checked), P (v.prepare sql args >>= fun _ => pure checked)
  query : ∀ method s typed sql args, P (v.checkQuery ⟨unit, method, s⟩ typed sql args)

namespace Composes

variable {P : ∀ {ε α : Type}, ExceptT ε (StateM CheckState) α → Prop} {v : Validator}
  {unit : SourceUnit}

theorem lift (rules : Composes P) {α : Type} (result : Except ValidationError α) :
    P (Validator.lift result) := by
  cases result with
  | error e => exact rules.throw e
  | ok a => exact rules.pure a

theorem foldlM (rules : Composes P) {ε α β : Type}
    {step : α → β → ExceptT ε (StateM CheckState) α} (one : ∀ a b, P (step a b)) (bs : List β)
    (a : α) : P (bs.foldlM step a) := by
  induction bs generalizing a with
  | nil => exact rules.pure a
  | cons b bs ih =>
      rw [List.foldlM_cons]
      apply rules.bind (one a b)
      intro next
      exact ih next

theorem checkObject (rules : Composes P) (parts : v.HasParts unit P) (method : MethodDecl)
    (s : StatementDecl) (typed : TypedStatement) (args : List String) (call : CheckCall) :
    P (v.checkObject ⟨unit, method, s⟩ typed args call) := by
  apply rules.bind (parts.ask method s call)
  intro note
  exact rules.pure _

theorem checkMutation (rules : Composes P) (parts : v.HasParts unit P) (method : MethodDecl)
    (s : StatementDecl) (typed : TypedStatement) (sql : String) (args : Arguments) :
    P (v.checkMutation ⟨unit, method, s⟩ typed sql args) := by
  apply rules.bind (parts.ask method s (.sql sql))
  intro note
  have prepares (text : String) :=
    parts.prepare text args { statement := typed, note := some note }
  dsimp only
  cases s.convention with
  | call => exact rules.bind (rules.lift _) prepares
  | _ => exact rules.bind (rules.pure sql) prepares

theorem statement (rules : Composes P) (parts : v.HasParts unit P) (params : ParamTable)
    (method : MethodDecl) (s : StatementDecl) : P (v.statement params ⟨unit, method, s⟩) := by
  unfold Validator.statement
  dsimp only
  split
  · apply rules.bind (rules.lift _)
    intro name
    apply rules.bind (rules.lift _)
    intro args
    apply rules.bind (rules.lift _)
    intro types
    exact rules.checkObject parts method s _ args _
  · apply rules.bind (rules.lift _)
    intro name
    exact rules.checkObject parts method s _ [] _
  · split
    · exact rules.throw _
    · apply rules.bind (rules.lift _)
      intro q
      apply rules.bind (rules.lift _)
      intro args
      split
      · exact rules.checkMutation parts method s _ q.sql args
      · exact parts.query method s _ q.sql args

theorem addEdit (rules : Composes P) (stack : List Frame) (edits : EditList) (edit : Edit) :
    P (Validating.addEdit stack edits edit) :=
  rules.adapt (rules.lift _) _

theorem validateStatement (rules : Composes P) (parts : v.HasParts unit P) (method : MethodDecl)
    (draft : ValidatedUnit × List TypedStatement) (s : StatementDecl) :
    P (v.validateStatement unit method draft s) := by
  apply rules.bind (rules.adapt (rules.statement parts _ method s) _)
  intro checked
  cases checked.edit with
  | none => exact rules.bind (rules.pure _) fun _ => rules.pure _
  | some edit => exact rules.bind (rules.addEdit _ _ edit) fun _ => rules.pure _

theorem addParamEdit (rules : Composes P) (unit : SourceUnit) (edits : EditList)
    (p : ParamDecl × TypedParam) : P (Validator.addParamEdit unit edits p) := by
  unfold Validator.addParamEdit
  split
  · exact rules.pure edits
  · exact rules.addEdit _ _ _

theorem validateMethod (rules : Composes P) (parts : v.HasParts unit P) (u : ValidatedUnit)
    (method : MethodDecl) : P (v.validateMethod unit u method) := by
  apply rules.bind (rules.foldlM (rules.validateStatement parts method) method.statements (u, []))
  intro draft
  apply rules.bind (rules.adapt (rules.lift _) _)
  intro params
  apply rules.bind (rules.foldlM (rules.addParamEdit unit) _ _)
  intro edits
  exact rules.pure _

/-- What the parts of a check have, the check of all methods of a unit has. -/
theorem validateMethods (rules : Composes P) (parts : v.HasParts unit P) (params : ParamTable) :
    P (v.validateMethods unit params) := by
  apply rules.bind (rules.foldlM (rules.validateMethod parts) unit.methods _)
  intro u
  exact rules.pure _

end Composes

end SqlUnits
