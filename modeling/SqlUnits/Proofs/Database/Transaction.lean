import SqlUnits.Proofs.Sql.Transaction
/-!
What runs on a connection do to the transactions that are open on it. A savepoint goes when it is
released; apart from statements about transactions, all that can happen is that a broken rule ends
all of them at once.
-/

namespace SqlUnits

namespace Contents

variable {name : String} {db before : Database} {marks : List Mark}

theorem marksFrom_named : marksFrom name (⟨some name, before⟩ :: marks) =
    ⟨some name, before⟩ :: marks := by
  simp [marksFrom, Mark.isNamed, Text.sameLetters]

theorem release_named : (⟨db, ⟨some name, before⟩ :: marks⟩ : Contents).release name =
    .ok ⟨db, marks⟩ := by
  simp [release, marksFrom_named]

theorem rollbackTo_named : (⟨db, ⟨some name, before⟩ :: marks⟩ : Contents).rollbackTo name =
    .ok ⟨before, ⟨some name, before⟩ :: marks⟩ := by
  simp [rollbackTo, marksFrom_named]

end Contents

namespace Connection

open Sql (Parsed)

/-- A statement about transactions, taken as a step. -/
def transact (c : Connection) (step : Sql.TransactionStep) :
    Except DriverError Unit × Connection :=
  match c.contents.step step with
  | .ok contents => (.ok (), { c with contents })
  | .error m => (.error (.failure m), c)

variable {c : Connection} {text : Text}

theorem logged_nil (c : Connection) : c.logged [] = c := by
  simp [logged]

theorem batchFrom_nil (fuel : Nat) : batchFrom fuel c [] = (.ok (), c) := by
  cases fuel <;> rfl

/-- A text whose first statement is about transactions. -/
theorem batchFrom_transaction {step : Sql.TransactionStep} {rest : Text} (fuel : Nat)
    (more : text.isEmpty = false)
    (parsed : Parsed.ofText text = .ok (some ⟨none, .transaction step, 0, rest⟩)) :
    batchFrom (fuel + 1) c text =
      match c.transact step with
      | (.ok _, c) => batchFrom fuel c rest
      | (.error e, c) => (.error e, c) := by
  have prepared : c.prepare (String.ofList text) =
      .ok { action := .transaction step, rest } := by
    unfold prepare
    rw [String.toList_ofList, parsed]
    rfl
  have stepped : stepOnce (c.run { action := .transaction step, rest } []) = c.transact step := by
    simp only [run, transact]
    cases c.contents.step step with
    | error m => exact congrArg (Except.error (DriverError.failure m), ·) (logged_nil c)
    | ok contents => exact congrArg (Except.ok (), ·) (logged_nil { c with contents })
  rw [batchFrom, more, prepared]
  rcases transacted : c.transact step with ⟨result, left⟩
  cases result <;> simp only [Bool.false_eq_true, if_false, stepped, transacted]

theorem batchFrom_last {step : Sql.TransactionStep} (fuel : Nat) (more : text.isEmpty = false)
    (parsed : Parsed.ofText text = .ok (some ⟨none, .transaction step, 0, []⟩)) :
    batchFrom (fuel + 1) c text = c.transact step := by
  rw [batchFrom_transaction fuel more parsed]
  simp only [batchFrom_nil]
  rcases c.transact step with ⟨result, left⟩
  cases result <;> rfl

section

variable {name : String} (isName : Sql.Command.IsName name.toList)

include isName

theorem executeBatch_savepoint :
    c.executeBatch ("SAVEPOINT " ++ name) =
      (.ok (), { c with contents := c.contents.savepoint name }) := by
  have parsed := Parsed.ofText_savepoint isName
  rw [String.ofList_toList] at parsed
  unfold executeBatch
  rw [String.toList_append]
  exact batchFrom_last _ rfl parsed

theorem executeBatch_release :
    c.executeBatch ("RELEASE " ++ name) = c.transact (.release name) := by
  have parsed := Parsed.ofText_release isName (List.forall_mem_nil (· = ' '))
  rw [String.ofList_toList] at parsed
  unfold executeBatch
  rw [String.toList_append]
  exact batchFrom_last _ rfl parsed

theorem executeBatch_rollbackTo :
    c.executeBatch ("ROLLBACK TO " ++ name ++ "; RELEASE " ++ name) =
      match c.transact (.rollbackTo name) with
      | (.ok _, c) => c.transact (.release name)
      | (.error e, c) => (.error e, c) := by
  have second := Parsed.ofText_release isName (List.forall_mem_singleton.2 (rfl : ' ' = ' '))
  have solid : '\x00' ∉ [' '] ++ ("RELEASE ".toList ++ name.toList) := by
    simpa using isName.isWord.whole
  have first := Parsed.ofText_rollbackTo isName solid
  rw [String.ofList_toList] at first second
  have written : ("ROLLBACK TO " ++ name ++ "; RELEASE " ++ name).toList =
      "ROLLBACK TO ".toList ++
        (name.toList ++ ';' :: ([' '] ++ ("RELEASE ".toList ++ name.toList))) := by
    simp
  unfold executeBatch
  rw [written, batchFrom_transaction _ rfl first]
  rcases c.transact (.rollbackTo name) with ⟨result, left⟩
  cases result with
  | error e => rfl
  | ok _ =>
      obtain ⟨fuel, length⟩ :
          ∃ fuel, ("ROLLBACK TO " ++ name ++ "; RELEASE " ++ name).length = fuel + 1 :=
        ⟨_, by simp [← String.length_toList, written]; rfl⟩
      rw [length]
      exact batchFrom_last _ rfl second

end

theorem stopped_marks (c : Connection) (p : Progress) (r : Refusal) :
    (c.stopped p r).contents.marks = c.contents.marks ∨ (c.stopped p r).contents.marks = [] := by
  unfold stopped
  cases r.conflict with
  | rollback =>
      simp only [Contents.rollback]
      cases c.contents.marks.getLast? with
      | none => exact .inl rfl
      | some m => exact .inr rfl
  | _ => exact .inl rfl

/-- Apart from statements about transactions, a run leaves the open ones or ends them all. -/
theorem run_marks (c : Connection) {s : Statement} (values : List Stored)
    (plain : ∀ step, s.action ≠ .transaction step) :
    (c.run s values).connection.contents.marks = c.contents.marks ∨
      (c.run s values).connection.contents.marks = [] := by
  unfold run
  cases action : s.action with
  | transaction step => exact absurd action (plain step)
  | change plan =>
      simp only [runChange]
      rcases ((plan.run (c.env values)).run).run _ with ⟨result, p⟩
      cases result with
      | ok _ => exact .inl rfl
      | error r => exact stopped_marks c p r
  | schema effect =>
      simp only [runSchema]
      rcases (effect (c.env values)).outcome with ⟨result, calls⟩
      cases result <;> exact .inl rfl
  | _ => exact .inl rfl

theorem resolve_plain {s : Sql.Statement} {columns : List DeclaredColumn} {action : Action}
    (resolved : Statement.resolve c s = .ok (columns, action)) (plain : s.isTransaction = false) :
    ∀ step, action ≠ .transaction step := by
  unfold Statement.resolve at resolved
  cases s with
  | transaction step => cases plain
  | query q =>
      obtain ⟨plan, _, same⟩ := bind_result resolved
      cases same
      nofun
  | change change =>
      obtain ⟨plan, _, same⟩ := bind_result resolved
      cases same
      nofun
  | schema change =>
      obtain ⟨effect, _, same⟩ := bind_result resolved
      cases same
      nofun
  | pragma name argument =>
      simp only [pure, Except.pure, Except.ok.injEq] at resolved
      unfold Statement.pragma at resolved
      split at resolved <;> cases resolved <;> nofun
  | maintenance =>
      cases resolved
      nofun

/-- A text without control of transactions is prepared as something else. -/
theorem prepare_plain {sql : String} {s : Statement} (prepared : c.prepare sql = .ok s)
    (free : Sql.controlsTransaction sql = false) : ∀ step, s.action ≠ .transaction step := by
  unfold prepare at prepared
  unfold Sql.controlsTransaction at free
  cases parsed : Parsed.ofText sql.toList with
  | error p => simp [parsed] at prepared
  | ok first =>
      rw [parsed] at prepared free
      cases first with
      | none =>
          cases prepared
          nofun
      | some p =>
          obtain ⟨⟨columns, action⟩, found, same⟩ := bind_result (mapError_eq_ok.1 prepared)
          cases same
          cases explain : p.explain with
          | some how => cases how <;> nofun
          | none =>
              simp only [Parsed.controls, explain, Option.isNone_none, Bool.true_and] at free
              exact resolve_plain found free

end Connection

end SqlUnits
