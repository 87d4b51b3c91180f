import SqlUnits.Proofs.Check.Gathering
import SqlUnits.Proofs.Check.Named
import SqlUnits.Proofs.Project.Isolation
import SqlUnits.Proofs.Project.Stages
/-!
What is kept in files between runs is read back as it was: the artifacts of units, and the state,
whatever was recorded and forgotten, and however often it went through its file.
-/

namespace SqlUnits

/-! Artifacts. -/

/-- A text that memory can hold, so that its lines can be counted. -/
def SourceFile.Fits (file : SourceFile) : Prop :=
  file.text.length + 1 < twoPow 64

namespace Preprocessor

variable {p : Preprocessor} {files : List SourceFile} {run : RunRecord}

theorem attempt_grows (p : Preprocessor) (run : RunRecord) (file : SourceFile) :
    run.shapes.Grows (p.attempt run file).2.shapes := by
  cases read : SourceUnit.scan file.path file.text with
  | error e =>
      rw [attempt_of_error read]
      exact .refl _
  | ok unit =>
      rw [attempt_of_scan read]
      exact p.validator.validate_grows p.source unit run

theorem attempts_grow (p : Preprocessor) (run : RunRecord) (files : List SourceFile) :
    run.shapes.Grows (p.attempts run files).2.shapes := by
  induction files generalizing run with
  | nil => exact .refl _
  | cons file rest ih => exact (p.attempt_grows run file).trans (ih _)

theorem attempts_builtin (p : Preprocessor) (files : List SourceFile) (stored : Option Database) :
    (p.attempts { stored } files).2.shapes.Builtin := by
  have none_ : ({} : ShapeRegistry).Builtin := fun _ _ known => nomatch known
  exact (p.attempts_grow { stored } files).builtin none_

/-- The artifacts that a run makes can be stored. -/
theorem run_storable (p : Preprocessor) (fits : ∀ file ∈ files, file.Fits)
    (stored : Option Database) :
    ∀ r ∈ (p.run files stored).units, ∀ typed ∈ r.typed, typed.Storable := by
  intro r member typed artifact
  obtain ⟨file, among, made⟩ := (forall₂_mem (p.run_made files stored)).2 r member
  obtain ⟨unit, u, run, last, read, passed, rfl⟩ := made typed artifact
  exact Validator.validate_storable read passed (fits file among) (p.attempts_builtin files stored)

end Preprocessor

/-! The state. -/

namespace RunState

/-- What happens to a state; it may go through its file. -/
inductive Step where
  | record (path text typed : String)
  | forget (path : String)
  | reload
deriving DecidableEq

def step (state : RunState) : Step → RunState
  | .record path text typed => state.record path text typed
  | .forget path => state.forget path
  | .reload => load state.toJson.pretty

/-- The state that is reached from none. -/
def replay (steps : List Step) : RunState :=
  steps.foldl step {}

variable {state : RunState}

theorem step_sorted (sorted : Sorted state.units) (s : Step) : Sorted (state.step s).units := by
  cases s with
  | record path text typed => exact record_sorted sorted path text typed
  | forget path => exact forget_sorted sorted path
  | reload => exact load_sorted _

theorem replay_sorted (steps : List Step) : Sorted (replay steps).units := by
  have start : Sorted ({} : RunState).units := List.Pairwise.nil
  exact List.foldlRecOn (motive := fun state => Sorted state.units) steps step start
    fun _ sorted s _ => step_sorted sorted s

/-- Nothing comes of a way through the file. -/
theorem replay_filter (steps : List Step) : replay (steps.filter (· ≠ .reload)) = replay steps := by
  have from_ {state : RunState} (sorted : Sorted state.units) :
      (steps.filter (· ≠ .reload)).foldl step state = steps.foldl step state := by
    induction steps generalizing state with
    | nil => rfl
    | cons s steps ih =>
        by_cases reload : s = .reload
        · subst reload
          have same : state.step .reload = state := load_toJson sorted
          rw [List.filter_cons_of_neg (by simp), List.foldl_cons, same, ih sorted]
        · rw [List.filter_cons_of_pos (by simpa using reload), List.foldl_cons, List.foldl_cons,
            ih (step_sorted sorted s)]
  exact from_ .nil

end RunState

theorem FileTree.read_of_write {tree next : FileTree} {path text : String}
    (written : tree.write path text = .ok next) : next.read path = .ok text := by
  unfold FileTree.write writeNode at written
  cases located : tree.locate? path with
  | none =>
      rw [located] at written
      cases written
  | some names =>
      have put (named : names ≠ []) : (tree.put names (.text text)).read path = .ok text := by
        refine read_eq_ok.2 (node_of_find? located ?_)
        rw [find?_put named, if_pos rfl]
      simp only [located] at written
      split at written
      · cases written
      · next old other found =>
        cases written
        exact put (named_of_find? tree fun same => other (Option.some.inj (found.symm.trans same)))
      · next missing _ =>
        cases written
        exact put (named_of_find? tree fun same => nomatch missing.symm.trans same)
      · cases written

namespace Command

theorem runs_loadState_of_write {state : RunState} (sorted : RunState.Sorted state.units)
    {tree next : FileTree} {path : String}
    (written : tree.write path state.toJson.pretty = .ok next) (log : List String) :
    Runs (loadState path false) ⟨next, log⟩ state ⟨next, log⟩ :=
  runs_loadState.2 ⟨.inr ⟨_, FileTree.read_of_write written, (RunState.load_toJson sorted).symm⟩,
    rfl⟩

/-- What is kept between runs is read back. A unit is, whatever its texts are, if its types have
names, as those of every unit have that a run makes; and so is a state, whatever was recorded and
forgotten. So it makes no difference to a state how often it was saved and loaded. -/
theorem kept_read_back :
    (∀ typed : TypedUnit, typed.Storable →
      JsonTree.read TypedUnit.ofTree typed.toJson.pretty = .ok typed) ∧
    (∀ (p : Preprocessor) (files : List SourceFile) (stored : Option Database),
      (∀ file ∈ files, file.Fits) →
        ∀ r ∈ (p.run files stored).units, ∀ typed ∈ r.typed, typed.Storable) ∧
    (∀ (steps : List RunState.Step) (tree next : FileTree) (path : String) (log : List String),
      tree.write path (RunState.replay steps).toJson.pretty = .ok next →
        Runs (loadState path false) ⟨next, log⟩ (RunState.replay steps) ⟨next, log⟩) ∧
    ∀ steps : List RunState.Step,
      RunState.replay (steps.filter (· ≠ .reload)) = RunState.replay steps :=
  ⟨fun _ storable => TypedUnit.read_toJson storable,
    fun p _ stored fits => p.run_storable fits stored,
    fun steps _ _ _ log written =>
      runs_loadState_of_write (RunState.replay_sorted steps) written log,
    RunState.replay_filter⟩

theorem kept_read_back_quoted :
    let typed : TypedUnit := {
      unit := "U"
      source := "a \"b\"\\\n\t\u0001é"
      rows := [⟨"R", false, true,
        [⟨"at", .value (.custom "point"), .yes⟩, ⟨"of", .descriptor, .no⟩]⟩]
      methods := [⟨"m", [⟨"p", .long⟩],
        [{ convention := "value", line := 3, sql := some "SELECT '\x7b' || ?", args := ["p"]
           valueType := some .string }, { convention := "proc", line := 4, object := some "" }]⟩] }
    let steps : List RunState.Step := [.record "/w/\"a\".sqlp" "unit A" "typed/A.json", .reload,
      .record "/w/b.sqlp" "unit B" "typed/B.json", .forget "/w/\"a\".sqlp", .reload]
    let p : Preprocessor := ⟨{}, .apart (.ok {}), .ofDialect .sqlite, .builtins⟩
    let files : List SourceFile := [⟨"a", "unit A fn m()\x7bvalue long\x7bSELECT 1\x7d\x7d"⟩]
    typed.Storable ∧ JsonTree.read TypedUnit.ofTree typed.toJson.pretty = .ok typed ∧
      (∃ r ∈ (p.run files).units, ∃ typed ∈ r.typed, typed.Storable) ∧
      (∃ next, (⟨"/w", []⟩ : FileTree).write "/w/.sqlprobe-state.json"
          (RunState.replay steps).toJson.pretty = .ok next ∧
        Runs (loadState "/w/.sqlprobe-state.json" false) ⟨next, []⟩ (RunState.replay steps)
          ⟨next, []⟩) ∧
      RunState.replay (steps.filter (· ≠ .reload)) = RunState.replay steps := by
  intro typed steps p files
  obtain ⟨units, runs, states, reloads⟩ := kept_read_back
  have storable : typed.Storable := by
    refine ⟨?_, ?_⟩
    · intro r member f inside
      obtain rfl := List.mem_singleton.1 member
      simp only [List.mem_cons, List.not_mem_nil, or_false] at inside
      rcases inside with rfl | rfl
      · exact ⟨"point", by decide +kernel⟩
      · exact ⟨"meta", by decide +kernel⟩
    · intro m member
      obtain rfl := List.mem_singleton.1 member
      refine ⟨fun p inside => ?_, fun s inside => ?_⟩
      · obtain rfl := List.mem_singleton.1 inside
        exact .builtin (by decide)
      · simp only [List.mem_cons, List.not_mem_nil, or_false] at inside
        rcases inside with rfl | rfl
        · refine ⟨?_, by decide +kernel⟩
          rintro _ ⟨⟩
          exact .builtin (by decide)
        · exact ⟨nofun, by decide +kernel⟩
  have made : (p.run files).units.any (·.typed.isSome) = true := by decide +kernel
  obtain ⟨r, member, some_⟩ := List.any_eq_true.1 made
  obtain ⟨u, there⟩ := Option.isSome_iff_exists.1 some_
  have fits : ∀ file ∈ files, file.Fits :=
    List.forall_mem_singleton.2 (by unfold SourceFile.Fits; decide +kernel)
  have located : (⟨"/w", []⟩ : FileTree).locate? "/w/.sqlprobe-state.json" =
      some [".sqlprobe-state.json"] := by decide +kernel
  have written (text : String) : ∃ next,
      (⟨"/w", []⟩ : FileTree).write "/w/.sqlprobe-state.json" text = .ok next := by
    unfold FileTree.write FileTree.writeNode
    rw [located]
    exact ⟨_, rfl⟩
  obtain ⟨next, written⟩ := written (RunState.replay steps).toJson.pretty
  exact ⟨storable, units typed storable,
    ⟨r, member, u, there, runs p files none fits r member u there⟩,
    ⟨next, written, states steps _ next _ [] written⟩, reloads steps⟩

end Command

end SqlUnits
