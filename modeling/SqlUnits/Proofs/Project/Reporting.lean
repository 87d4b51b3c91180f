import SqlUnits.Proofs.Artifact.Modules
import SqlUnits.Proofs.Check.Gathering
import SqlUnits.Proofs.Project.Isolation
/-!
What a run reports. A source either passes, with its text, its artifact and notes, or it fails with
neither. The totals of the report are those of its diagnostics and its units, since each that is
added keeps them so; it has errors exactly if one of its diagnostics is one.
-/

namespace SqlUnits

namespace Report

/-- The totals of a report count the errors among its diagnostics. -/
def CountsErrors (r : Report) : Prop :=
  r.summary.errors = r.diagnostics.countP (·.severity == .error)

/-- The totals of a report count the units that failed. -/
def CountsFailed (r : Report) : Prop :=
  r.summary.unitsFailed = r.units.countP (·.status == .failed)

/-- The totals of a report are those of its diagnostics and of its units. -/
structure AddsUp (r : Report) : Prop where
  total : r.summary.total = r.diagnostics.length
  severities : r.summary.total = r.summary.errors + r.summary.warnings + r.summary.info
  errors : r.CountsErrors
  warnings : r.summary.warnings = r.diagnostics.countP (·.severity == .warn)
  info : r.summary.info = r.diagnostics.countP (·.severity == .info)
  units : r.summary.unitsChecked + r.summary.unitsSkipped = r.units.length
  skipped : r.summary.unitsSkipped = r.units.countP (·.status == .skipped)
  failed : r.CountsFailed
  statements : r.summary.statementsValidated = SqlUnits.total (r.units.map (·.statements))

variable {r : Report}

theorem addsUp_empty : ({} : Report).AddsUp :=
  ⟨rfl, rfl, rfl, rfl, rfl, rfl, rfl, rfl, rfl⟩

/-- A diagnostic counts for its severity, and for no unit. -/
theorem AddsUp.addDiagnostic (adds : r.AddsUp) (d : Diagnostic) : (r.addDiagnostic d).AddsUp := by
  obtain ⟨total, severities, errors, warnings, info, units, skipped, failed, statements⟩ := adds
  unfold CountsErrors at errors
  rcases d with ⟨code, severity⟩
  cases severity <;>
    refine ⟨?_, ?_, ?_, ?_, ?_, units, skipped, failed, statements⟩ <;>
    simp [CountsErrors, Report.addDiagnostic, countDiagnostic, ← total, ← errors, ← warnings,
      ← info] <;>
    omega

/-- A unit counts for its status, and for no diagnostic. -/
theorem AddsUp.addUnit (adds : r.AddsUp) (outcome : UnitOutcome) : (r.addUnit outcome).AddsUp := by
  obtain ⟨total, severities, errors, warnings, info, units, skipped, failed, statements⟩ := adds
  unfold CountsFailed at failed
  rcases outcome with ⟨path, unit, status, count⟩
  cases status <;>
    refine ⟨total, severities, errors, warnings, info, ?_, ?_, ?_, ?_⟩ <;>
    simp [CountsFailed, Report.addUnit, countUnit, ← units, ← skipped, ← failed, ← statements] <;>
    omega

theorem AddsUp.addUnits (adds : r.AddsUp) (outcomes : List UnitOutcome) :
    (outcomes.foldl Report.addUnit r).AddsUp :=
  List.foldlRecOn outcomes _ adds fun _ adds outcome _ => adds.addUnit outcome

theorem AddsUp.addDiagnostics (adds : r.AddsUp) (diagnostics : List Diagnostic) :
    (diagnostics.foldl Report.addDiagnostic r).AddsUp :=
  List.foldlRecOn diagnostics _ adds fun _ adds d _ => adds.addDiagnostic d

theorem AddsUp.hasErrors_iff (adds : r.AddsUp) :
    r.hasErrors = true ↔ ∃ d ∈ r.diagnostics, d.severity = .error := by
  unfold hasErrors
  rw [adds.errors, decide_eq_true_eq, gt_iff_lt, List.countP_pos_iff]
  simp only [beq_iff_eq]

theorem AddsUp.failed_pos_iff (adds : r.AddsUp) :
    0 < r.summary.unitsFailed ↔ ∃ o ∈ r.units, o.status = .failed := by
  rw [adds.failed, List.countP_pos_iff]
  simp only [beq_iff_eq]

theorem foldl_addUnit_diagnostics (outcomes : List UnitOutcome) (r : Report) :
    (outcomes.foldl addUnit r).diagnostics = r.diagnostics := by
  induction outcomes generalizing r with
  | nil => rfl
  | cons outcome rest ih => exact ih _

theorem foldl_addDiagnostic_diagnostics (diagnostics : List Diagnostic) (r : Report) :
    (diagnostics.foldl addDiagnostic r).diagnostics = r.diagnostics ++ diagnostics := by
  induction diagnostics generalizing r with
  | nil => simp
  | cons d rest ih =>
      rw [List.foldl_cons, ih, addDiagnostic, List.append_assoc]
      rfl

end Report

/-- What is made of a source: it passes as a unit of which there is nothing but notes, or fails. -/
inductive UnitResult.Of (file : SourceFile) (r : UnitResult) : Prop
  | passed (text : String) (typed : TypedUnit) (unit : SourceUnit) :
      r.rewritten = some text → r.typed = some typed → unit ∈ file.unit? → Noted r.diagnostics →
        Of file r
  | failed : r.rewritten = none → r.typed = none → Of file r

namespace UnitResult.Of

variable {file : SourceFile} {r : UnitResult}

/-- An error that is no note comes of a source that failed. -/
theorem failed_of_diagnostic (of : Of file r) {d : Diagnostic} (member : d ∈ r.diagnostics)
    (other : d.code.isNote = false) : r.rewritten = none := by
  cases of with
  | passed _ _ _ _ _ _ noted =>
      rw [noted d member] at other
      cases other
  | failed none_ _ => exact none_

theorem typed_eq (of : Of file r) : (r.rewritten.bind fun _ => r.typed) = r.typed := by
  cases of with
  | passed text _ _ some_ _ _ _ => rw [some_, Option.bind_some]
  | failed _ none_ => rw [none_, Option.bind_fun_none]

end UnitResult.Of

namespace Code

variable {units some_ : List TypedUnit} {rowNamespace : String} {files : List GeneratedFile}

/-- Code that is generated for some units is generated for fewer of them. -/
theorem generate_mono (made : generate units rowNamespace = .ok files) (inside : some_ ⊆ units) :
    ∃ files', generate some_ rowNamespace = .ok files' := by
  obtain ⟨perUnit, _, mapped, _, _⟩ := generate_parts made
  obtain ⟨fewer, mapped'⟩ := exists_mapM fun unit member => by
    obtain ⟨own, _, one⟩ := (forall₂_mem (mapM_eq_ok_iff.1 mapped)).1 unit (inside member)
    exact ⟨own, one⟩
  unfold generate
  rw [mapped']
  exact ⟨_, rfl⟩

end Code

namespace Preprocessor

variable {p : Preprocessor} {file : SourceFile} {files : List SourceFile}

theorem attempt_result (p : Preprocessor) (run : RunRecord) (file : SourceFile)
    (shapes : ShapeRegistry) :
    UnitResult.Of file (withSeverities p.config ((p.attempt run file).1.result shapes)) := by
  cases read : SourceUnit.scan file.path file.text with
  | error e =>
      rw [attempt_of_error read]
      exact .failed rfl rfl
  | ok unit =>
      rw [attempt_of_scan read]
      rcases checked : p.validator.validate p.source unit run with ⟨failure | u, last⟩
      · exact .failed rfl rfl
      · have noted := (Validator.validate_raised checked).noted
        have same : Noted (u.diagnostics.map fun d =>
            { d with severity := p.config.severityOf d.code d.severity }) := by
          intro d member
          obtain ⟨raised, inside, rfl⟩ := List.mem_map.1 member
          exact noted raised inside
        show UnitResult.Of file (withSeverities p.config (Attempt.finish file unit u shapes))
        unfold Attempt.finish
        dsimp only
        split
        · exact .passed _ _ unit rfl rfl (SourceFile.mem_unit?.2 read) same
        · exact .failed rfl rfl

/-- A run makes something of each file. -/
theorem run_results (p : Preprocessor) (files : List SourceFile) (stored : Option Database) :
    List.Forall₂ UnitResult.Of files (p.run files stored).units := by
  rw [run_units, List.forall₂_map_right_iff]
  refine (attempts_each p { stored } files).imp fun file a one => ?_
  obtain ⟨run, rfl⟩ := one
  exact attempt_result p run file _

theorem run_typed (p : Preprocessor) (files : List SourceFile) (stored : Option Database) :
    ((p.run files stored).units.filterMap fun r => r.rewritten.bind fun _ => r.typed) =
      (p.run files stored).units.filterMap (·.typed) := by
  refine List.filterMap_congr fun r member => ?_
  obtain ⟨file, _, of⟩ := (forall₂_mem (run_results p files stored)).2 r member
  exact of.typed_eq

theorem run_addsUp (p : Preprocessor) (files : List SourceFile) (stored : Option Database) :
    (p.run files stored).report.AddsUp := by
  unfold run
  dsimp only
  refine Report.AddsUp.addDiagnostics ?_ _
  split
  · exact Report.addsUp_empty.addUnits _
  · exact (Report.addsUp_empty.addUnits _).addDiagnostic _

/-- The diagnostics of all results, behind that of the generation of code if it fails. -/
theorem run_diagnostics (p : Preprocessor) (files : List SourceFile) (stored : Option Database) :
    (p.run files stored).report.diagnostics =
      (match Code.generate ((p.run files stored).units.filterMap (·.typed))
          p.config.rowNamespace with
        | .ok _ => []
        | .error e => [generationFailure e]) ++
      (p.run files stored).units.flatMap (·.diagnostics) := by
  have same (results : List UnitResult) :
      (results.map (withSeverities p.config)).filterMap (·.typed) =
        results.filterMap (·.typed) :=
    List.filterMap_map
  unfold run
  dsimp only
  rw [Report.foldl_addDiagnostic_diagnostics, same]
  congr 1
  cases Code.generate _ _ with
  | ok files => exact Report.foldl_addUnit_diagnostics _ _
  | error e =>
      dsimp only
      unfold Report.addDiagnostic
      rw [Report.foldl_addUnit_diagnostics]
      rfl

end Preprocessor

end SqlUnits
