import SqlUnits.Proofs.Check.Trace
import SqlUnits.Proofs.Project.Stages
import SqlUnits.Proofs.Project.Verdict
/-!
The totals of a run. There is one outcome for each file, and the statements of exactly those units
count that passed. Sources that are skipped are added behind these, and count as nothing else.
-/

namespace SqlUnits

/-- The statements of a unit, in all of its methods. -/
def SourceUnit.statementCount (unit : SourceUnit) : Nat :=
  total (unit.methods.map (·.statements.length))

namespace Validator

variable {v : Validator} {source : ConnectionSource} {unit : SourceUnit} {run last : RunRecord}
  {u : ValidatedUnit}

/-- All statements of a unit that passed were validated. -/
theorem validate_statementCount (passed : v.validate source unit run = (.ok u, last)) :
    u.statementCount = unit.statementCount := by
  obtain ⟨_, _, _, _, passing⟩ := validate_passing passed
  unfold ValidatedUnit.statementCount SourceUnit.statementCount
  exact congrArg total
    (map_eq_of_forall₂ (fun _ _ typedAs => typedAs.statements) passing.typed)

end Validator

/-- What is known of a source once all are checked: its unit counts with all of its statements if it
passed, and no other source counts with any. -/
def Attempt.counted : Attempt → Nat
  | passed _ unit _ => unit.statementCount
  | _ => 0

namespace Preprocessor

variable {p : Preprocessor}

theorem attempt_file (p : Preprocessor) (run : RunRecord) (file : SourceFile) :
    (p.attempt run file).1.file = file := by
  cases read : SourceUnit.scan file.path file.text with
  | error e => rw [attempt_of_error read]; rfl
  | ok unit =>
      rw [attempt_of_scan read]
      cases (p.validator.validate p.source unit run).1 <;> rfl

theorem attempt_statements (p : Preprocessor) (run : RunRecord) (file : SourceFile) :
    (p.attempt run file).1.statements = (p.attempt run file).1.counted := by
  cases read : SourceUnit.scan file.path file.text with
  | error e => rw [attempt_of_error read]; rfl
  | ok unit =>
      rw [attempt_of_scan read]
      rcases passed : p.validator.validate p.source unit run with ⟨failure | u, last⟩
      · rfl
      · exact Validator.validate_statementCount passed

theorem status_eq_failed_iff {r : UnitResult} {text : String} :
    r.status text = .failed ↔ r.rewritten.isNone = true := by
  unfold UnitResult.status UnitResult.isFailed
  split
  · next failed => exact iff_of_true rfl failed
  · next passed =>
    refine iff_of_false ?_ passed
    split <;> nofun

theorem status_ne_skipped (r : UnitResult) (text : String) : r.status text ≠ .skipped := by
  unfold UnitResult.status
  split
  · nofun
  · split <;> nofun

theorem run_outcomes_each (p : Preprocessor) (files : List SourceFile) (stored : Option Database) :
    List.Forall₂ (fun file o => o.path = file.path ∧ o.status ≠ .skipped) files
      (p.run files stored).report.units := by
  rw [run_outcomes, List.forall₂_map_right_iff]
  refine (attempts_each p { stored } files).imp fun file a one => ?_
  obtain ⟨run, rfl⟩ := one
  exact ⟨attempt_path p run file _, status_ne_skipped _ _⟩

/-- As many units are said to have failed as there are results without text. -/
theorem run_countP_failed (p : Preprocessor) (files : List SourceFile) (stored : Option Database) :
    (p.run files stored).report.units.countP (·.status == .failed) =
      (p.run files stored).units.countP (·.rewritten.isNone) := by
  rw [run_outcomes, run_units, List.countP_map, List.countP_map]
  refine List.countP_congr fun a _ => ?_
  exact beq_iff_eq.trans status_eq_failed_iff

theorem run_statements (p : Preprocessor) (files : List SourceFile) (stored : Option Database) :
    (p.run files stored).report.units.map (·.statements) =
      (p.attempts { stored } files).1.map Attempt.counted := by
  rw [run_outcomes, List.map_map]
  refine List.map_congr_left fun a member => ?_
  obtain ⟨file, _, run, rfl⟩ := (forall₂_mem (attempts_each p { stored } files)).2 a member
  exact attempt_statements p run file

end Preprocessor

/-- A report on files that were run, to which sources were added that are skipped. -/
structure Report.Accounts (p : Preprocessor) (files : List SourceFile) (stored : Option Database)
    (skipped : List UnitOutcome) (r : Report) : Prop where
  addsUp : r.AddsUp
  diagnostics : r.diagnostics =
    (match Code.generate ((p.run files stored).units.filterMap (·.typed)) p.config.rowNamespace with
      | .ok _ => []
      | .error e => [Preprocessor.generationFailure e]) ++
    (p.run files stored).units.flatMap (·.diagnostics)
  outcomes : ∃ outcomes, r.units = outcomes ++ skipped ∧
    List.Forall₂ (fun file o => o.path = file.path ∧ o.status ≠ .skipped) files outcomes
  unitsSkipped : r.summary.unitsSkipped = skipped.length
  unitsFailed : r.summary.unitsFailed = (p.run files stored).units.countP (·.rewritten.isNone)
  statements : r.summary.statementsValidated =
    total ((p.attempts { stored } files).1.map Attempt.counted)

namespace Report.Accounts

variable {p : Preprocessor} {files : List SourceFile} {stored : Option Database}
  {skipped : List UnitOutcome} {r : Report}

theorem of_run (p : Preprocessor) (files : List SourceFile) (stored : Option Database) :
    (p.run files stored).report.Accounts p files stored [] := by
  have addsUp := p.run_addsUp files stored
  have outcomes := p.run_outcomes_each files stored
  have none_ : (p.run files stored).report.units.countP (·.status == .skipped) = 0 := by
    refine List.countP_eq_zero.2 fun o member => ?_
    obtain ⟨_, _, _, other⟩ := (forall₂_mem outcomes).2 o member
    rwa [beq_iff_eq]
  exact ⟨addsUp, p.run_diagnostics files stored, ⟨_, (List.append_nil _).symm, outcomes⟩,
    addsUp.skipped.trans none_, addsUp.failed.trans (p.run_countP_failed files stored),
    addsUp.statements.trans (congrArg total (p.run_statements files stored))⟩

/-- A source that is skipped counts as skipped, and as nothing else. -/
theorem addUnit (accounts : r.Accounts p files stored skipped) {o : UnitOutcome}
    (status : o.status = .skipped) (none_ : o.statements = 0) :
    (r.addUnit o).Accounts p files stored (skipped ++ [o]) := by
  obtain ⟨addsUp, diagnostics, ⟨outcomes, units, each⟩, unitsSkipped, unitsFailed, statements⟩ :=
    accounts
  have summary : (r.addUnit o).summary =
      { r.summary with unitsSkipped := r.summary.unitsSkipped + 1 } := by
    simp only [Report.addUnit, countUnit, status, none_, Nat.add_zero]
  refine ⟨addsUp.addUnit o, diagnostics, ⟨outcomes, ?_, each⟩, ?_, ?_, ?_⟩
  · rw [Report.addUnit, units, List.append_assoc]
  · rw [summary, List.length_append, ← unitsSkipped]
    rfl
  · rw [summary, ← unitsFailed]
  · rw [summary, ← statements]

theorem addUnits (accounts : r.Accounts p files stored skipped) {more : List UnitOutcome}
    (only : ∀ o ∈ more, o.status = .skipped ∧ o.statements = 0) :
    (more.foldl Report.addUnit r).Accounts p files stored (skipped ++ more) := by
  induction more generalizing r skipped with
  | nil => rwa [List.append_nil]
  | cons o more ih =>
      obtain ⟨⟨status, none_⟩, others⟩ := List.forall_mem_cons.1 only
      have whole := ih (accounts.addUnit status none_) others
      rwa [List.append_assoc] at whole

end Report.Accounts

namespace Preprocessor

/-- The report of a run adds up, and goes on to do so when sources are added to it that are skipped.
There is an attempt for each file, and what is said of it has the severities that the configuration
gives it. -/
theorem run_accounts (p : Preprocessor) (files : List SourceFile) (stored : Option Database)
    (skipped : List UnitOutcome) (only : ∀ o ∈ skipped, o.status = .skipped ∧ o.statements = 0) :
    (p.run files stored).report.Accounts p files stored [] ∧
    (skipped.foldl Report.addUnit (p.run files stored).report).Accounts p files stored skipped ∧
    (p.attempts { stored } files).1.map Attempt.file = files ∧
    List.Forall₂ (fun a r => r.diagnostics =
        (a.result (p.attempts { stored } files).2.shapes).diagnostics.map fun d =>
          { d with severity := p.config.severityOf d.code d.severity })
      (p.attempts { stored } files).1 (p.run files stored).units := by
  refine ⟨.of_run p files stored, (Report.Accounts.of_run p files stored).addUnits only, ?_, ?_⟩
  · conv_rhs => rw [← List.map_id files]
    refine map_eq_of_forall₂ (fun file a one => ?_) (attempts_each p { stored } files)
    obtain ⟨run, rfl⟩ := one
    exact attempt_file p run file
  · rw [run_units, List.forall₂_map_right_iff, List.forall₂_same]
    exact fun _ _ => rfl

/-- A unit of two statements, a file that cannot be read, and a source that is skipped. -/
theorem run_accounts_mixed :
    let p : Preprocessor := ⟨{}, .apart (.ok {}), .ofDialect .sqlite, .builtins⟩
    let passed : SourceFile :=
      ⟨"a.sqlp", "unit A fn m() \x7b value long \x7b SELECT 1 \x7d value long \x7b SELECT 2 \x7d \x7d"⟩
    let files : List SourceFile := [passed, ⟨"b.sqlp", "unit"⟩]
    let skipped : List UnitOutcome := [⟨"c.sqlp", some "C", .skipped, 0⟩]
    let report := skipped.foldl Report.addUnit (p.run files).report
    report.Accounts p files none skipped ∧
      report.summary = ⟨1, 1, 0, 0, 2, 1, 1, 2⟩ := by
  intro p passed files skipped report
  have only : ∀ o ∈ skipped, o.status = .skipped ∧ o.statements = 0 := by decide
  obtain ⟨-, accounts, -, -⟩ := p.run_accounts files none skipped only
  exact ⟨accounts, by decide +kernel⟩

end Preprocessor

/-- The report of the command, with the sources that are not stale. -/
theorem Command.Survey.report_accounts (v : Survey) (k : Settings) :
    (v.report k).Accounts k.preprocessor v.stale k.stored
      (v.fresh.map fun f => ⟨f.1, some f.2.unit, .skipped, 0⟩) := by
  refine (Report.Accounts.of_run k.preprocessor v.stale k.stored).addUnits fun o member => ?_
  obtain ⟨f, _, rfl⟩ := List.mem_map.1 member
  exact ⟨rfl, rfl⟩

end SqlUnits
