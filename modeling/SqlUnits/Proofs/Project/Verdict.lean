import SqlUnits.Proofs.Project.Reporting
import SqlUnits.Proofs.Project.Rereading
/-!
Errors and failures. What becomes of a source is settled before severities are overridden, so that
a failed unit need not have an error, and one that is written back may have one.
-/

namespace SqlUnits

/-- The severity of a diagnostic tells whether its code rejects a unit. -/
def Diagnostic.Faithful (d : Diagnostic) : Prop :=
  d.severity = .error ↔ d.code.isNote = false

/-- Whatever is reported under a configuration is an error exactly if it rejects a unit. -/
def Config.Faithful (config : Config) : Prop :=
  ∀ code : DiagnosticCode, ∀ raised ∈ code.severity? config.warn,
    (config.severityOf code raised = .error ↔ code.isNote = false)

example : ({} : Config).Faithful := by
  rintro (_ | _ | _ | _ | _ | _ | _ | _ | _ | _) _ ⟨⟩ <;> decide

def UnitResult.HasError (r : UnitResult) : Prop :=
  ∃ d ∈ r.diagnostics, d.severity = .error

/-- What is reported of a source that is written back, and of one that failed. -/
inductive Verdict (r : UnitResult) (o : UnitOutcome) : Prop
  | passed (text : String) (typed : TypedUnit) : r.rewritten = some text → r.typed = some typed →
      o.status ≠ .failed → Noted r.diagnostics → Verdict r o
  | failed (d : Diagnostic) : r.rewritten = none → r.typed = none → o.status = .failed →
      r.diagnostics = [d] → d.code.isNote = false → Verdict r o

namespace Verdict

variable {r : UnitResult} {o : UnitOutcome}

theorem failed_iff (verdict : Verdict r o) :
    (r.rewritten = none ↔ o.status = .failed) ∧ (r.typed = none ↔ o.status = .failed) := by
  cases verdict with
  | passed text typed some_ made other _ =>
      rw [some_, made]
      exact ⟨iff_of_false nofun other, iff_of_false nofun other⟩
  | failed _ none_ none' same _ _ => exact ⟨iff_of_true none_ same, iff_of_true none' same⟩

/-- A failed unit has errors, and one that is written back has none, exactly if the severities of
all that is said of it tell whether it was rejected. -/
theorem hasError_iff (verdict : Verdict r o) :
    (r.HasError ↔ o.status = .failed) ↔ ∀ d ∈ r.diagnostics, d.Faithful := by
  cases verdict with
  | passed _ _ _ _ other noted =>
      have faithful (d : Diagnostic) (member : d ∈ r.diagnostics) :
          d.Faithful ↔ d.severity ≠ .error := by
        unfold Diagnostic.Faithful
        rw [noted d member]
        simp
      rw [iff_false_right other]
      unfold UnitResult.HasError
      push Not
      exact forall₂_congr fun d member => (faithful d member).symm
  | failed d _ _ same only rejects =>
      unfold UnitResult.HasError
      rw [only, iff_true_right same]
      simp [Diagnostic.Faithful, rejects]

end Verdict

theorem UnitResult.status_ne_failed {r : UnitResult} {text original : String}
    (some_ : r.rewritten = some text) : r.status original ≠ .failed := by
  unfold status isFailed
  rw [some_]
  split
  · contradiction
  · split <;> nofun

namespace Preprocessor

variable {p : Preprocessor} {file : SourceFile} {run : RunRecord} {shapes : ShapeRegistry}

/-- What a run says of its units has the severities that its configuration gives to their codes. -/
def Severe (config : Config) (r : UnitResult) : Prop :=
  ∀ d ∈ r.diagnostics, ∃ raised ∈ d.code.severity? config.warn,
    d.severity = config.severityOf d.code raised

theorem withSeverities_severe {r : UnitResult}
    (raised : ∀ d ∈ r.diagnostics, d.code.severity? p.config.warn = some d.severity) :
    Severe p.config (withSeverities p.config r) := by
  intro d member
  obtain ⟨d, inside, rfl⟩ := List.mem_map.1 member
  exact ⟨d.severity, raised d inside, rfl⟩

theorem severity?_of_rejects {code : DiagnosticCode} (rejects : code.isNote = false)
    (mode : WarnMode) : code.severity? mode = some .error := by
  cases code <;> first | rfl | cases rejects

/-- An error that rejects a source is the only thing that is said of it. -/
theorem verdict_of_error {d : Diagnostic} (rejects : d.code.isNote = false)
    (raised : d.severity = .error) (path : String) (unit : Option String) (text : String) (n : Nat) :
    let r : UnitResult := { path, unit, diagnostics := [d] }
    Verdict (withSeverities p.config r) ⟨path, unit, r.status text, n⟩ ∧
      Severe p.config (withSeverities p.config r) := by
  refine ⟨.failed _ rfl rfl rfl rfl rejects, withSeverities_severe fun d' member => ?_⟩
  obtain rfl := List.mem_singleton.1 member
  rw [raised]
  exact severity?_of_rejects rejects _

theorem attempt_verdict (builtin : shapes.Builtin) :
    Verdict (withSeverities p.config ((p.attempt run file).1.result shapes))
        (outcome (p.attempt run file).1 ((p.attempt run file).1.result shapes)) ∧
      Severe p.config (withSeverities p.config ((p.attempt run file).1.result shapes)) := by
  cases read : SourceUnit.scan file.path file.text with
  | error e =>
      rw [attempt_of_error read]
      exact verdict_of_error rfl rfl file.path none file.text 0
  | ok unit =>
      rw [attempt_of_scan read]
      rcases passed : p.validator.validate p.source unit run with ⟨failure | u, last⟩
      · exact verdict_of_error failure.error.code_isNote rfl file.path _ file.text 0
      · obtain ⟨text, finished, _⟩ := Attempt.finish_written read passed builtin
        have result : Attempt.result shapes (.passed file unit u) =
          Attempt.written file unit u shapes text := finished
        have raised := Validator.validate_raised passed
        have some_ : (Attempt.written file unit u shapes text).rewritten = some text := rfl
        dsimp only
        rw [result]
        refine ⟨.passed text _ rfl rfl (UnitResult.status_ne_failed some_) fun d member => ?_,
          withSeverities_severe fun d member => (raised d member).2⟩
        obtain ⟨d, inside, rfl⟩ := List.mem_map.1 member
        exact (raised d inside).1

theorem attempt_path (p : Preprocessor) (run : RunRecord) (file : SourceFile)
    (shapes : ShapeRegistry) :
    (withSeverities p.config ((p.attempt run file).1.result shapes)).path = file.path := by
  cases read : SourceUnit.scan file.path file.text with
  | error e => rw [attempt_of_error read]; rfl
  | ok unit =>
      rw [attempt_of_scan read]
      cases (p.validator.validate p.source unit run).1 with
      | error failure => rfl
      | ok u =>
          show (Attempt.finish file unit u shapes).path = file.path
          unfold Attempt.finish
          dsimp only
          split <;> rfl

theorem attempts_verdicts (p : Preprocessor) (files : List SourceFile) (stored : Option Database) :
    List.Forall₂ (fun r o => Verdict r o ∧ Severe p.config r) (p.run files stored).units
      (p.run files stored).report.units := by
  have none_ : ({} : ShapeRegistry).Builtin := fun _ _ known => nomatch known
  have builtin := (p.attempts_grow { stored } files).builtin none_
  rw [run_units, run_outcomes, List.forall₂_map_left_iff, List.forall₂_map_right_iff,
    List.forall₂_same]
  intro a member
  obtain ⟨file, _, run, rfl⟩ := (forall₂_mem (attempts_each p { stored } files)).2 a member
  exact attempt_verdict builtin

/-- No code can be generated for what a run has made of its files. -/
def Ungenerated (p : Preprocessor) (files : List SourceFile) (stored : Option Database) : Prop :=
  ∃ e, Code.generate ((p.run files stored).units.filterMap (·.typed)) p.config.rowNamespace =
    .error e

theorem run_hasErrors_iff (p : Preprocessor) (files : List SourceFile)
    (stored : Option Database) :
    (p.run files stored).report.hasErrors = true ↔
      p.Ungenerated files stored ∨ ∃ r ∈ (p.run files stored).units, r.HasError := by
  have said : (∃ d ∈ (p.run files stored).units.flatMap (·.diagnostics), d.severity = .error) ↔
      ∃ r ∈ (p.run files stored).units, r.HasError := by
    unfold UnitResult.HasError
    constructor
    · rintro ⟨d, member, error⟩
      obtain ⟨r, inside, among⟩ := List.mem_flatMap.1 member
      exact ⟨r, inside, d, among, error⟩
    · rintro ⟨r, inside, d, among, error⟩
      exact ⟨d, List.mem_flatMap.2 ⟨r, inside, among⟩, error⟩
  rw [(run_addsUp p files stored).hasErrors_iff, run_diagnostics, ← said]
  unfold Ungenerated
  cases Code.generate _ _ with
  | ok made => simp
  | error e => simp [generationFailure]

theorem run_failed_iff (p : Preprocessor) (files : List SourceFile) (stored : Option Database) :
    0 < (p.run files stored).report.summary.unitsFailed ↔
      ∃ o ∈ (p.run files stored).report.units, o.status = .failed :=
  (run_addsUp p files stored).failed_pos_iff

/-- Errors and failures of a run. A unit fails with one diagnostic, whose code rejects it, or it is
written back with nothing but notes; their severities are those that the configuration has for their
codes. So a failed unit, and no other one, has an error exactly if these severities tell the codes
that reject a unit from notes. Where they do so for all codes, a run has errors exactly if a unit
failed, or no code can be generated. -/
theorem run_verdicts (p : Preprocessor) (files : List SourceFile) (stored : Option Database) :
    (p.run files stored).units.map (·.path) = files.map (·.path) ∧
    List.Forall₂ (fun r o => Verdict r o ∧ Severe p.config r ∧
        (r.rewritten = none ↔ o.status = .failed) ∧ (r.typed = none ↔ o.status = .failed) ∧
        ((r.HasError ↔ o.status = .failed) ↔ ∀ d ∈ r.diagnostics, d.Faithful))
      (p.run files stored).units (p.run files stored).report.units ∧
    ((p.run files stored).report.hasErrors = true ↔
      p.Ungenerated files stored ∨ ∃ r ∈ (p.run files stored).units, r.HasError) ∧
    (0 < (p.run files stored).report.summary.unitsFailed ↔
      ∃ o ∈ (p.run files stored).report.units, o.status = .failed) ∧
    (p.config.Faithful → ((p.run files stored).report.hasErrors = true ↔
      0 < (p.run files stored).report.summary.unitsFailed ∨ p.Ungenerated files stored)) := by
  have verdicts := attempts_verdicts p files stored
  refine ⟨?_, verdicts.imp fun r o both => ?_, run_hasErrors_iff p files stored,
    run_failed_iff p files stored, fun faithful => ?_⟩
  · rw [run_units, List.map_map]
    refine map_eq_of_forall₂ (fun file a one => ?_) (attempts_each p { stored } files)
    obtain ⟨run, rfl⟩ := one
    exact attempt_path p run file _
  · obtain ⟨verdict, severe⟩ := both
    exact ⟨verdict, severe, verdict.failed_iff.1, verdict.failed_iff.2, verdict.hasError_iff⟩
  · rw [run_hasErrors_iff, run_failed_iff, or_comm]
    refine or_congr_left ?_
    have same (r : UnitResult) (o : UnitOutcome) (verdict : Verdict r o)
        (severe : Severe p.config r) : r.HasError ↔ o.status = .failed := by
      refine verdict.hasError_iff.2 fun d member => ?_
      obtain ⟨raised, here, severity⟩ := severe d member
      unfold Diagnostic.Faithful
      rw [severity]
      exact faithful d.code raised here
    obtain ⟨left, right⟩ := forall₂_mem verdicts
    constructor
    · rintro ⟨r, member, error⟩
      obtain ⟨o, among, verdict, severe⟩ := left r member
      exact ⟨o, among, (same r o verdict severe).1 error⟩
    · rintro ⟨o, member, failed⟩
      obtain ⟨r, among, verdict, severe⟩ := right o member
      exact ⟨r, among, (same r o verdict severe).2 failed⟩

/-- A row that is never populated is an error for some configurations; its unit is written back all
the same. -/
theorem run_verdicts_strict :
    let p : Preprocessor :=
      ⟨{ warn := .error }, .apart (.ok {}), .ofDialect .sqlite, .builtins⟩
    let out := p.run [⟨"u", "unit U row R"⟩]
    ∃ r, out.units = [r] ∧ r.HasError ∧ r.rewritten = some "unit U row R" ∧
      out.report.units.map (·.status) = [.unchanged] ∧ out.report.hasErrors = true ∧
        out.report.summary.unitsFailed = 0 := by
  intro p out
  have shown : out.units.map (fun r => (r.rewritten, r.diagnostics.map (·.severity))) =
      [(some "unit U row R", [.error])] := by
    decide +kernel
  obtain ⟨r, units, same⟩ := List.map_eq_singleton_iff.1 shown
  obtain ⟨rewritten, severities⟩ := Prod.mk.inj same
  obtain ⟨d, only, error⟩ := List.map_eq_singleton_iff.1 severities
  refine ⟨r, units, ⟨d, ?_, error⟩, rewritten, ?_⟩
  · rw [only]
    exact .head []
  · decide +kernel

end Preprocessor

end SqlUnits
