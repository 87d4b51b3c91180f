import SqlUnits.Project.Run
import SqlUnits.Proofs.Check.Binding
import SqlUnits.Proofs.Check.Isolation
import SqlUnits.Proofs.Unit.Scan
/-!
Runs over several files. Each file comes out as it does alone, whatever other files there are, in
whatever order, and whether they fail or not: units keep to the rows under their own names.
-/

namespace SqlUnits

section

variable {unit : SourceUnit} {shapes others : ShapeRegistry}

theorem TypedUnit.rowEdits_same (same : shapes.SameFor unit others) :
    rowEdits unit shapes = rowEdits unit others := by
  have edit (r : RowDecl) : rowEdit? unit shapes r = rowEdit? unit others r := by
    unfold rowEdit?
    rw [same r.name.name]
  unfold rowEdits
  rw [funext edit]

theorem TypedUnit.build_same (same : shapes.SameFor unit others) (methods : List TypedMethod) :
    build unit methods shapes = build unit methods others := by
  unfold build
  simp only [same _]

/-- The unit that a file holds, if it can be read. -/
def SourceFile.unit? (file : SourceFile) : Option SourceUnit :=
  (SourceUnit.scan file.path file.text).toOption

theorem SourceFile.mem_unit? {file : SourceFile} :
    unit ∈ file.unit? ↔ SourceUnit.scan file.path file.text = .ok unit := by
  unfold unit?
  cases SourceUnit.scan file.path file.text <;> simp [Except.toOption]

/-- The units of two files have different names. -/
def SourceFile.NamedApart (file other : SourceFile) : Prop :=
  ∀ unit ∈ file.unit?, ∀ unit' ∈ other.unit?, unit.name.name ≠ unit'.name.name

theorem SourceFile.NamedApart.symm {file other : SourceFile} (apart : file.NamedApart other) :
    other.NamedApart file :=
  fun unit member unit' member' same => apart unit' member' unit member same.symm

/-- Where a text is read from makes no difference to the name of its unit. -/
theorem SourceUnit.scan_anywhere {path source : String} {unit : SourceUnit}
    (read : scan path source = .ok unit) (other : String) :
    ∃ unit', scan other source = .ok unit' ∧ unit'.name = unit.name := by
  obtain ⟨draft, d, name, at_, named, declared, rfl⟩ := scan_eq_ok.1 read
  exact ⟨_, scan_eq_ok.2 ⟨draft, d, name, at_, named, declared, rfl⟩, rfl⟩

/-- Files whose units have different names have different texts, if one of them can be read. -/
theorem SourceFile.NamedApart.text_ne {file other : SourceFile} (apart : file.NamedApart other)
    (member : unit ∈ file.unit?) : file.text ≠ other.text := by
  intro same
  have read := mem_unit?.1 member
  rw [same] at read
  obtain ⟨unit', read', name⟩ := SourceUnit.scan_anywhere read other.path
  exact apart unit member unit' (mem_unit?.2 read') (congrArg Ident.name name.symm)

namespace Attempt

def unit? : Attempt → Option SourceUnit
  | unread _ _ => none
  | failed _ unit _ => some unit
  | passed _ unit _ => some unit

theorem result_same {a : Attempt} (same : ∀ unit ∈ a.unit?, shapes.SameFor unit others) :
    a.result shapes = a.result others := by
  cases a with
  | unread | failed => rfl
  | passed file unit validated =>
      have rows := same unit rfl
      show finish file unit validated shapes = finish file unit validated others
      unfold finish
      rw [TypedUnit.rowEdits_same rows, TypedUnit.build_same rows]

end Attempt

end

namespace Report

theorem foldl_addUnit_units (outcomes : List UnitOutcome) (r : Report) :
    (outcomes.foldl addUnit r).units = r.units ++ outcomes := by
  induction outcomes generalizing r with
  | nil => simp
  | cons outcome rest ih =>
      rw [List.foldl_cons, ih, addUnit, List.append_assoc]
      rfl

theorem foldl_addDiagnostic_units (diagnostics : List Diagnostic) (r : Report) :
    (diagnostics.foldl addDiagnostic r).units = r.units := by
  induction diagnostics generalizing r with
  | nil => rfl
  | cons d rest ih => exact ih _

end Report

namespace Preprocessor

variable {p : Preprocessor} {file : SourceFile} {files : List SourceFile} {run run' : RunRecord}
  {unit : SourceUnit}

theorem attempt_of_scan (read : SourceUnit.scan file.path file.text = .ok unit)
    (run : RunRecord) :
    p.attempt run file =
      ((match (p.validator.validate p.source unit run).1 with
        | .ok validated => .passed file unit validated
        | .error failure => .failed file unit failure),
      (p.validator.validate p.source unit run).2) := by
  unfold attempt
  simp only [read]
  rcases p.validator.validate p.source unit run with ⟨failure | validated, last⟩ <;> rfl

theorem attempt_of_error {e : ScanError} (unread : SourceUnit.scan file.path file.text = .error e)
    (run : RunRecord) : p.attempt run file = (.unread file e, run) := by
  unfold attempt
  rw [unread]

theorem attempt_unit? (p : Preprocessor) (run : RunRecord) (file : SourceFile) :
    (p.attempt run file).1.unit? = file.unit? := by
  unfold SourceFile.unit?
  cases read : SourceUnit.scan file.path file.text with
  | error e =>
      rw [attempt_of_error read]
      rfl
  | ok unit =>
      rw [attempt_of_scan read]
      cases (p.validator.validate p.source unit run).1 <;> rfl

/-- Some databases open in the same way, and only such ones come of it when the files are
checked. -/
structure Steady (p : Preprocessor) (files : List SourceFile) (kept : Database → Prop) : Prop where
  opens : ∀ db db', kept db → kept db' → (p.source.connect db).1 = (p.source.connect db').1
  keeps : ∀ file ∈ files, ∀ run : RunRecord, kept (run.stored.getD {}) →
    kept ((p.attempt run file).2.stored.getD {})

theorem Steady.ofIndependent (independent : p.source.Independent) (files : List SourceFile) :
    p.Steady files fun _ => True where
  opens db db' _ _ := independent db db'
  keeps _ _ _ _ := trivial

theorem Steady.mono {more : List SourceFile} {kept : Database → Prop} (steady : p.Steady more kept)
    (inside : files ⊆ more) : p.Steady files kept :=
  ⟨steady.opens, fun file member => steady.keeps file (inside member)⟩

/-- A file comes as far in any two runs that open the same connection and know the same of its rows,
and they know the same of them then. -/
theorem attempt_same (copies : (p.source.connect (run.stored.getD {})).1 =
      (p.source.connect (run'.stored.getD {})).1)
    (same : ∀ unit ∈ file.unit?, run.shapes.SameFor unit run'.shapes) :
    (p.attempt run file).1 = (p.attempt run' file).1 ∧
      ∀ unit ∈ file.unit?,
        (p.attempt run file).2.shapes.SameFor unit (p.attempt run' file).2.shapes := by
  cases read : SourceUnit.scan file.path file.text with
  | error e =>
      rw [attempt_of_error read, attempt_of_error read]
      exact ⟨rfl, same⟩
  | ok unit =>
      obtain ⟨result, after⟩ := Validator.validate_same (v := p.validator) copies
        (same unit (SourceFile.mem_unit?.2 read))
      rw [attempt_of_scan read, attempt_of_scan read, result]
      refine ⟨rfl, fun unit' member => ?_⟩
      obtain rfl : unit = unit' := Except.ok.inj (read.symm.trans (SourceFile.mem_unit?.1 member))
      exact after

/-- An attempt leaves the rows of a unit with another name alone. -/
theorem attempt_apart {other : SourceFile} (apart : file.NamedApart other) (run : RunRecord) :
    ∀ unit ∈ other.unit?, run.shapes.SameFor unit (p.attempt run file).2.shapes := by
  intro unit member row
  cases read : SourceUnit.scan file.path file.text with
  | error e => rw [attempt_of_error read]
  | ok checked =>
      have different := apart checked (SourceFile.mem_unit?.2 read) unit member
      have isName := SourceUnit.scan_isName (SourceFile.mem_unit?.1 member)
      rw [attempt_of_scan read]
      refine (Validator.validate_keepsOthers p.validator p.source checked run _ ?_).symm
      intro own same
      exact different (SourceUnit.name_of_qualified (SourceUnit.scan_isName read) isName same.symm)

theorem attempts_apart {other : SourceFile} (apart : ∀ file ∈ files, file.NamedApart other)
    (run : RunRecord) :
    ∀ unit ∈ other.unit?, run.shapes.SameFor unit (p.attempts run files).2.shapes := by
  intro unit member
  induction files generalizing run with
  | nil => exact fun row => rfl
  | cons file rest ih =>
      obtain ⟨first, others⟩ := List.forall_mem_cons.1 apart
      exact (attempt_apart first run unit member).trans (ih others (p.attempt run file).2)

/-- Every file comes as far as it does alone, and the whole run knows of its rows what a run of the
file alone does. -/
theorem attempts_alone {kept : Database → Prop} (steady : p.Steady files kept)
    (apart : files.Pairwise SourceFile.NamedApart) (start : kept (run.stored.getD {}))
    (fresh : ∀ file ∈ files, ∀ unit ∈ file.unit?, ({} : ShapeRegistry).SameFor unit run.shapes) :
    List.Forall₂ (fun file a => ∀ stored : Option Database, kept (stored.getD {}) →
        (p.attempt { stored } file).1 = a ∧
        ∀ unit ∈ file.unit?,
          (p.attempt { stored } file).2.shapes.SameFor unit (p.attempts run files).2.shapes)
      files (p.attempts run files).1 := by
  induction files generalizing run with
  | nil => exact .nil
  | cons file rest ih =>
      obtain ⟨first, others⟩ := List.pairwise_cons.1 apart
      obtain ⟨fresh, later⟩ := List.forall_mem_cons.1 fresh
      have next := steady.keeps file List.mem_cons_self run start
      -- The files behind this one leave its rows alone, as it does theirs.
      refine .cons (fun stored opens => ?_)
        (ih (steady.mono (List.subset_cons_self file rest)) others next
          fun other member unit inside => ?_)
      · have before : ∀ unit ∈ file.unit?,
            ({ stored } : RunRecord).shapes.SameFor unit run.shapes := fresh
        obtain ⟨same, rows⟩ := attempt_same (steady.opens _ _ opens start) before
        refine ⟨same, fun unit inside => (rows unit inside).trans ?_⟩
        exact attempts_apart (fun other member => (first other member).symm) _ unit inside
      · exact (later other member unit inside).trans
          (attempt_apart (first other member) run unit inside)

theorem attempts_each (p : Preprocessor) (run : RunRecord) (files : List SourceFile) :
    List.Forall₂ (fun file a => ∃ run, a = (p.attempt run file).1) files
      (p.attempts run files).1 := by
  induction files generalizing run with
  | nil => exact .nil
  | cons file rest ih => exact .cons ⟨run, rfl⟩ (ih _)

theorem run_units (p : Preprocessor) (files : List SourceFile) (stored : Option Database) :
    (p.run files stored).units = (p.attempts { stored } files).1.map fun a =>
      withSeverities p.config (a.result (p.attempts { stored } files).2.shapes) :=
  List.map_map

/-- The artifacts of a run are built from the units that were validated. -/
theorem run_made (p : Preprocessor) (files : List SourceFile) (stored : Option Database) :
    List.Forall₂ (fun file r => ∀ typed ∈ r.typed, ∃ unit u run last,
        SourceUnit.scan file.path file.text = .ok unit ∧
        p.validator.validate p.source unit run = (.ok u, last) ∧
        typed = TypedUnit.build unit u.methods (p.attempts { stored } files).2.shapes)
      files (p.run files stored).units := by
  rw [run_units, List.forall₂_map_right_iff]
  refine (attempts_each p { stored } files).imp fun file a one => ?_
  obtain ⟨run, rfl⟩ := one
  cases read : SourceUnit.scan file.path file.text with
  | error e =>
      rw [attempt_of_error read]
      nofun
  | ok unit =>
      rw [attempt_of_scan read]
      rcases passed : p.validator.validate p.source unit run with ⟨failure | u, last⟩
      · nofun
      · dsimp only [withSeverities, Attempt.result]
        unfold Attempt.finish
        dsimp only
        split
        · rintro _ ⟨⟩
          exact ⟨unit, u, run, last, rfl, passed, rfl⟩
        · nofun

theorem run_outcomes (p : Preprocessor) (files : List SourceFile) (stored : Option Database) :
    (p.run files stored).report.units = (p.attempts { stored } files).1.map fun a =>
      outcome a (a.result (p.attempts { stored } files).2.shapes) := by
  have outcomes (as : List Attempt) (shapes : ShapeRegistry) :
      (((as.zip (as.map (Attempt.result shapes))).map fun pair => outcome pair.1 pair.2).foldl
        Report.addUnit {}).units = as.map fun a => outcome a (a.result shapes) := by
    have pairs : as.zip (as.map (Attempt.result shapes)) =
        as.map fun a => (a, a.result shapes) := by
      simpa using List.zip_map' (f := id) (g := Attempt.result shapes) (l := as)
    rw [Report.foldl_addUnit_units, pairs, List.map_map]
    rfl
  unfold run
  dsimp only
  rw [Report.foldl_addDiagnostic_units, ← outcomes]
  cases Code.generate _ _ <;> rfl

/-- What the whole run makes of a file, a run of the file alone makes of it. -/
theorem run_alone {kept : Database → Prop} (steady : p.Steady files kept)
    (apart : files.Pairwise SourceFile.NamedApart) {stored : Option Database}
    (start : kept (stored.getD {})) :
    List.Forall₂ (fun file a => ∀ alone : Option Database, kept (alone.getD {}) →
        (p.run [file] alone).units = [withSeverities p.config
          (a.result (p.attempts { stored } files).2.shapes)] ∧
        (p.run [file] alone).report.units =
          [outcome a (a.result (p.attempts { stored } files).2.shapes)])
      files (p.attempts { stored } files).1 := by
  have begins : kept (({ stored } : RunRecord).stored.getD {}) := start
  refine (attempts_alone steady apart begins fun _ _ _ _ _ => rfl).imp
    fun file a same alone opens => ?_
  obtain ⟨rfl, rows⟩ := same alone opens
  have result := Attempt.result_same fun unit member =>
    rows unit (attempt_unit? p { stored := alone } file ▸ member)
  rw [run_units, run_outcomes, ← result]
  exact ⟨rfl, rfl⟩

/-- Every file has the result in a run that it has alone. -/
theorem run_units_steady {kept : Database → Prop} (steady : p.Steady files kept)
    (apart : files.Pairwise SourceFile.NamedApart) {stored : Option Database}
    (start : kept (stored.getD {})) :
    List.Forall₂ (fun file r => ∀ alone : Option Database, kept (alone.getD {}) →
        (p.run [file] alone).units = [r])
      files (p.run files stored).units := by
  rw [run_units, List.forall₂_map_right_iff]
  exact (run_alone steady apart start).imp fun _ _ same alone opens => (same alone opens).1

theorem run_units_alone (independent : p.source.Independent)
    (apart : files.Pairwise SourceFile.NamedApart) (stored : Option Database) :
    List.Forall₂ (fun file r => ∀ alone, (p.run [file] alone).units = [r])
      files (p.run files stored).units :=
  (run_units_steady (.ofIndependent independent files) apart trivial).imp
    fun _ _ same alone => same alone trivial

theorem run_outcomes_alone (independent : p.source.Independent)
    (apart : files.Pairwise SourceFile.NamedApart) (stored : Option Database) :
    List.Forall₂ (fun file o => ∀ alone, (p.run [file] alone).report.units = [o])
      files (p.run files stored).report.units := by
  rw [run_outcomes, List.forall₂_map_right_iff]
  exact (run_alone (.ofIndependent independent files) apart trivial).imp
    fun _ _ same alone => (same alone trivial).2

/-- Every file has the result and the outcome in a run that it has alone, one each in the order of
the files; and it has them in any two runs that it is part of. The names of units are distinct, and
connections are copies of one database. -/
theorem run_isolated (independent : p.source.Independent)
    (apart : files.Pairwise SourceFile.NamedApart) (stored : Option Database) :
    List.Forall₂ (fun file r => ∀ alone, (p.run [file] alone).units = [r])
        files (p.run files stored).units ∧
      List.Forall₂ (fun file o => ∀ alone, (p.run [file] alone).report.units = [o])
        files (p.run files stored).report.units ∧
      ∀ (files' : List SourceFile) (stored' : Option Database) (i j : Nat),
        files'.Pairwise SourceFile.NamedApart → files[i]? = files'[j]? →
          (p.run files stored).units[i]? = (p.run files' stored').units[j]? ∧
          (p.run files stored).report.units[i]? = (p.run files' stored').report.units[j]? := by
  refine ⟨run_units_alone independent apart stored, run_outcomes_alone independent apart stored,
    fun files' stored' i j apart' same => ⟨?_, ?_⟩⟩
  · refine getElem?_congr_of_forall₂ ?_ (run_units_alone independent apart stored)
      (run_units_alone independent apart' stored') same
    intro file r r' here there
    exact List.singleton_inj.1 ((here none).symm.trans (there none))
  · refine getElem?_congr_of_forall₂ ?_ (run_outcomes_alone independent apart stored)
      (run_outcomes_alone independent apart' stored') same
    intro file o o' here there
    exact List.singleton_inj.1 ((here none).symm.trans (there none))

theorem run_isolated_failing :
    let p : Preprocessor := ⟨{}, .apart (.ok {}), .ofDialect .sqlite, .builtins⟩
    let bad : SourceFile := ⟨"bad", "unit Bad row R fn m()" ++
      "\x7bone R\x7bSELECT 1 AS n\x7dvalue _\x7bSELECT missing\x7d\x7d"⟩
    let good : SourceFile := ⟨"good", "unit Good row R fn m()\x7bone R\x7bSELECT 2.5 AS k\x7d\x7d"⟩
    let text := "unit Good row R(k: double) fn m()\x7bone R\x7bSELECT 2.5 AS k\x7d\x7d"
    ∃ b g, (p.run [bad, good]).units = [b, g] ∧ b.rewritten = none ∧ g.rewritten = some text ∧
      (p.run [bad]).units = [b] ∧ (p.run [good]).units = [g] := by
  intro p bad good text
  have names : bad.unit?.map (·.name.name) = some "Bad" ∧
      good.unit?.map (·.name.name) = some "Good" := by decide +kernel
  have apart : bad.NamedApart good := by
    intro unit member unit' member' same
    rw [Option.mem_def.1 member, Option.mem_def.1 member'] at names
    simp only [Option.map_some, Option.some.injEq] at names
    exact absurd (names.1.symm.trans (same.trans names.2)) (by decide)
  have shown : (p.run [bad, good]).units.map (·.rewritten) = [none, some text] := by
    decide +kernel
  obtain ⟨both, _, _⟩ := run_isolated (p := p) (ConnectionSource.apart_independent _)
    (List.pairwise_pair.2 apart) none
  obtain ⟨b, others, first, other, units⟩ := List.forall₂_cons_left_iff.1 both
  obtain ⟨g, others, second, none_, rfl⟩ := List.forall₂_cons_left_iff.1 other
  obtain rfl := List.forall₂_nil_left_iff.1 none_
  rw [units] at shown
  simp only [List.map_cons, List.map_nil, List.cons.injEq, and_true] at shown
  exact ⟨b, g, units, shown.1, shown.2, first none, second none⟩

end Preprocessor

end SqlUnits
