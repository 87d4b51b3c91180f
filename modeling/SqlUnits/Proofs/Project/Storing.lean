import Mathlib.Data.List.Pairwise
import SqlUnits.Proofs.Project.Reporting
import SqlUnits.Proofs.Project.Stages
/-!
What a run leaves behind. A source that passed is recorded with the text that it has then, and its
artifact is there; one that failed is forgotten. Only sources that passed are rewritten.
-/

namespace SqlUnits.Command

open FileTree (Changes NoSource)

/-- A source is recorded with a text that it has, and with an artifact that is there. -/
structure Recorded (may : List String → FileNode → Prop) (outDir : String) (file : SourceFile)
    (text : String) (state : RunState) (tree : FileTree) : Prop where
  artifact : ∃ artifact, state.units.lookup file.path = some ⟨Digest.ofText text, artifact⟩ ∧
    tree.holds (Path.join outDir artifact) = true
  written : text = file.text ∨
    ∃ between, between.node file.path = .ok (.text text) ∧ Changes may between tree

/-- What comes of storing some results. -/
structure Stored (may : List String → FileNode → Prop) (outDir : String)
    (results : List (SourceFile × UnitResult)) (state next : RunState)
    (before after : FileTree) : Prop where
  changes : Changes may before after
  sorted : RunState.Sorted state.units → RunState.Sorted next.units
  others : ∀ path, (∀ e ∈ results, e.1.path ≠ path) →
    next.units.lookup path = state.units.lookup path
  failed : ∀ e ∈ results, e.2.rewritten = none → next.units.lookup e.1.path = none
  passed : ∀ e ∈ results, ∀ text, e.2.rewritten = some text →
    Recorded may outDir e.1 text next after

variable {may : List String → FileNode → Prop} {outDir : String} {state next : RunState}
  {file : SourceFile} {r : UnitResult} {before after : FileTree}

theorem Recorded.later {text : String} (recorded : Recorded may outDir file text state before)
    (same : next.units.lookup file.path = state.units.lookup file.path)
    (changes : Changes may before after) : Recorded may outDir file text next after := by
  obtain ⟨⟨artifact, known, there⟩, written⟩ := recorded
  refine ⟨⟨artifact, same.trans known, changes.holds there⟩, written.imp_right ?_⟩
  rintro ⟨between, there, later⟩
  exact ⟨between, there, later.trans changes⟩

theorem artifactPath_endsWith (outDir unit : String) :
    Path.EndsWith (Path.join outDir (artifactPath unit)) 'n' := by
  have ends : Path.EndsWith ".json" 'n' := ⟨by decide, by decide, by decide⟩
  exact (ends.append ("typed/" ++ unit)).join outDir

/-- Storing one result. -/
theorem stores_one (of : UnitResult.Of file r)
    (stores : Stores outDir state file r before next after)
    (quiet : ∀ names node, SourceFile.isSource (names.getLastD "") = false → may names node)
    (rewrites : ∀ text, r.rewritten = some text → ∀ names,
      before.locate? file.path = some names → may names (.text text))
    (there : ∃ node, before.node file.path = .ok node) :
    Stored may outDir [(file, r)] state next before after := by
  cases stores with
  | @passed text typed between _ written artifact rewritten deep =>
      have rewriting : Changes may before between ∧
          (text = file.text ∨ between.node file.path = .ok (.text text)) := by
        split at rewritten
        · next same =>
          rw [rewritten]
          exact ⟨.refl, .inl same⟩
        · obtain ⟨node, there⟩ := there
          obtain ⟨names, located, found⟩ := FileTree.locate?_of_node there
          have there : Changes may before between ∧ between.node file.path = .ok (.text text) :=
            FileTree.writeNode_changes rewritten rfl (rewrites text written)
              fun names' located' _ missing => by
                rw [located] at located'
                cases located'
                rw [found] at missing
                cases missing
          exact there.imp_right .inr
      have noSource : between.NoSource (Path.join outDir (artifactPath typed.unit)) :=
        FileTree.noSource_of_endsWith (artifactPath_endsWith outDir typed.unit) (by decide) between
      obtain ⟨changes, here⟩ := noSource.writeDeep_changes deep fun names located =>
        quiet names _ (noSource names located)
      have lookup := RunState.lookup_record state file.path text (artifactPath typed.unit)
      refine ⟨rewriting.1.trans changes, fun sorted => RunState.record_sorted sorted _ _ _,
        ?_, ?_, ?_⟩
      · intro path apart
        have other : (path == file.path) = false :=
          beq_eq_false_iff_ne.2 fun same => apart _ (List.mem_singleton_self _) same.symm
        rw [lookup, other]
        rfl
      · intro e member failed
        obtain rfl := List.mem_singleton.1 member
        rw [written] at failed
        cases failed
      · intro e member text' written'
        obtain rfl := List.mem_singleton.1 member
        obtain rfl : text = text' := Option.some.inj (written.symm.trans written')
        refine ⟨⟨artifactPath typed.unit, ?_, ?_⟩, ?_⟩
        · rw [lookup, beq_self_eq_true, if_pos rfl]
        · unfold FileTree.holds
          rw [here]
          rfl
        · exact rewriting.2.imp_right fun here => ⟨between, here, changes⟩
  | failed none_ =>
      have failed : r.rewritten = none := by
        cases of with
        | passed text typed _ written artifact => exact absurd artifact (none_ text typed written)
        | failed failed => exact failed
      have lookup := RunState.lookup_forget state file.path
      refine ⟨.refl, fun sorted => RunState.forget_sorted sorted _, ?_, ?_, ?_⟩
      · intro path apart
        have other : (path == file.path) = false :=
          beq_eq_false_iff_ne.2 fun same => apart _ (List.mem_singleton_self _) same.symm
        rw [lookup, other]
        rfl
      · intro e member _
        obtain rfl := List.mem_singleton.1 member
        rw [lookup, beq_self_eq_true, if_pos rfl]
      · intro e member text written
        obtain rfl := List.mem_singleton.1 member
        rw [failed] at written
        cases written

/-- Two results, of which one that passed is not for the path of the other. -/
def Elsewhere (e e' : SourceFile × UnitResult) : Prop :=
  e.2.rewritten ≠ none ∨ e'.2.rewritten ≠ none → e.1.path ≠ e'.1.path

/-- Storing results one after the other. -/
theorem runs_stores {verbose : Bool} {results : List (SourceFile × UnitResult)}
    {s t : Session} (runs : Runs (results.foldlM (store outDir verbose) state) s next t)
    (of : ∀ e ∈ results, UnitResult.Of e.1 e.2) (elsewhere : results.Pairwise Elsewhere)
    (quiet : ∀ names node, SourceFile.isSource (names.getLastD "") = false → may names node)
    (rewrites : ∀ e ∈ results, ∀ text, e.2.rewritten = some text → ∀ names,
      s.tree.locate? e.1.path = some names → may names (.text text))
    (there : ∀ e ∈ results, ∃ node, s.tree.node e.1.path = .ok node) :
    Stored may outDir results state next s.tree t.tree := by
  induction results generalizing state s with
  | nil =>
      obtain ⟨rfl, rfl⟩ := runs_pure.1 runs
      exact ⟨.refl, id, fun _ _ => rfl, nofun, nofun⟩
  | cons e rest ih =>
      obtain ⟨file, r⟩ := e
      rw [List.foldlM_cons] at runs
      obtain ⟨state', s', first, others⟩ := runs_bind.1 runs
      obtain ⟨apart, elsewhere⟩ := List.pairwise_cons.1 elsewhere
      obtain ⟨ofOne, of⟩ := List.forall_mem_cons.1 of
      obtain ⟨rewritesOne, rewrites⟩ := List.forall_mem_cons.1 rewrites
      obtain ⟨thereOne, there⟩ := List.forall_mem_cons.1 there
      have one := stores_one ofOne (runs_store first) quiet rewritesOne thereOne
      have more := ih others of elsewhere
        (fun e member text written names located =>
          rewrites e member text written names (one.changes.locate? _ ▸ located))
        fun e member => by
          obtain ⟨node, found⟩ := there e member
          obtain ⟨node', found', _⟩ := one.changes.node_stays found
          exact ⟨node', found'⟩
      refine ⟨one.changes.trans more.changes, more.sorted ∘ one.sorted, ?_, ?_, ?_⟩
      · intro path apart
        obtain ⟨here, there⟩ := List.forall_mem_cons.1 apart
        rw [more.others path there, one.others path fun e member => ?_]
        obtain rfl := List.mem_singleton.1 member
        exact here
      · intro e member failed
        rcases List.mem_cons.1 member with rfl | later
        · have forgotten := one.failed _ (List.mem_singleton_self _) failed
          -- A later result for the same path failed as well.
          by_cases again : ∃ e ∈ rest, e.1.path = file.path
          · obtain ⟨e, inside, same⟩ := again
            have failed' : e.2.rewritten = none := by
              by_contra passed
              exact apart e inside (.inr passed) same.symm
            exact same ▸ more.failed e inside failed'
          · rw [more.others file.path fun e inside same => again ⟨e, inside, same⟩]
            exact forgotten
        · exact more.failed e later failed
      · intro e member text written
        rcases List.mem_cons.1 member with rfl | later
        · have recorded := one.passed _ (List.mem_singleton_self _) text written
          refine recorded.later (more.others file.path fun e inside same => ?_) more.changes
          have passed : r.rewritten ≠ none := by
            rw [written]
            exact Option.some_ne_none text
          exact apart e inside (.inl passed) same.symm
        · exact more.passed e later text written

/-! A whole run. -/

theorem Stored.between {results : List (SourceFile × UnitResult)} {tree tree' : FileTree}
    (stored : Stored may outDir results state next tree tree') (first : Changes may before tree)
    (last : Changes may tree' after) : Stored may outDir results state next before after where
  changes := (first.trans stored.changes).trans last
  sorted := stored.sorted
  others := stored.others
  failed := stored.failed
  passed e member text written := (stored.passed e member text written).later rfl last

theorem generate_endsWith {units : List TypedUnit} {rowNamespace : String}
    {files : List GeneratedFile} (made : Code.generate units rowNamespace = .ok files) :
    ∀ file ∈ files, Path.EndsWith file.path 's' := by
  have code : Path.EndsWith ".rs" 's' := ⟨by decide, by decide, by decide⟩
  have list : Path.EndsWith "mod.rs" 's' := ⟨by decide, by decide, by decide⟩
  obtain ⟨perUnit, sorted, mapped, _, rfl⟩ := Code.generate_parts made
  intro file member
  rcases List.mem_append.1 member with own | lists
  · obtain ⟨files, inside, among⟩ := List.mem_flatten.1 own
    obtain ⟨unit, _, one⟩ := (forall₂_mem (mapM_eq_ok_iff.1 mapped)).2 files inside
    have path := List.mem_map_of_mem (f := GeneratedFile.path) among
    rw [Code.unitFiles_paths one] at path
    simp only [List.mem_cons, List.not_mem_nil, or_false] at path
    rcases path with same | same
    · rw [same]
      exact code.append _
    · rw [same]
      exact (code.append _).join _
  · simp only [List.mem_cons, List.not_mem_nil, or_false] at lists
    rcases lists with rfl | rfl
    · exact list
    · exact list.join _

/-- Files that are no sources are written one after the other. -/
theorem writeAll_changes {files : List GeneratedFile} {start finish : FileTree}
    (written : files.foldlM (fun tree file => tree.writeDeep (Path.join outDir file.path)
      file.contents) start = .ok finish)
    (ends : ∀ file ∈ files, Path.EndsWith file.path 's')
    (quiet : ∀ names node, SourceFile.isSource (names.getLastD "") = false → may names node) :
    Changes may start finish := by
  induction files generalizing start with
  | nil =>
      cases written
      exact .refl
  | cons file files ih =>
      obtain ⟨endsOne, ends⟩ := List.forall_mem_cons.1 ends
      rw [List.foldlM_cons] at written
      cases one : start.writeDeep (Path.join outDir file.path) file.contents with
      | error e =>
          rw [one] at written
          cases written
      | ok between =>
          rw [one] at written
          have noSource : start.NoSource (Path.join outDir file.path) :=
            FileTree.noSource_of_endsWith (endsOne.join outDir) (by decide) start
          obtain ⟨first, _⟩ := noSource.writeDeep_changes one fun names located =>
            quiet names _ (noSource names located)
          exact first.trans (ih written ends)

namespace Survey

variable {v : Survey} {i : Invocation} {k : Settings} {tree : FileTree}

/-- What is made of the sources that are stale. -/
def results (v : Survey) (k : Settings) : List (SourceFile × UnitResult) :=
  v.stale.zip (k.run v.stale).units

/-- What a run may write where: anything where no source is, and the new text of a source that
passed in its place. -/
def MayWrite (v : Survey) (k : Settings) (tree : FileTree) (names : List String)
    (node : FileNode) : Prop :=
  SourceFile.isSource (names.getLastD "") = false ∨ ∃ e ∈ v.results k, ∃ text,
    e.2.rewritten = some text ∧ node = .text text ∧ tree.locate? e.1.path = some names

/-- The sources that are stale are those without an artifact. -/
theorem stale_of_marks {outDir : String}
    (marks : List.Forall₂ (Marked v.state outDir tree) v.files v.marks) :
    v.stale = v.files.filter fun file => (artifact? v.state outDir tree file).isNone := by
  unfold stale
  generalize v.files = files at marks
  generalize v.marks = marks' at marks
  induction marks with
  | nil => rfl
  | cons one _ ih =>
      cases one with
      | stale none_ =>
          rw [List.filterMap_cons, List.filter_cons, none_, ih]
          rfl
      | fresh some_ _ _ =>
          rw [List.filterMap_cons, List.filter_cons, some_, ih]
          rfl

theorem Of.stale_eq (of : v.Of i k.config tree) :
    v.stale = v.files.filter fun file =>
      (artifact? v.state (k.config.resolve k.config.outDir) tree file).isNone :=
  stale_of_marks of.marks

theorem Of.read (of : v.Of i k.config tree) {file : SourceFile} (member : file ∈ v.files) :
    tree.read file.path = .ok file.text ∧ SourceFile.isSource file.path = true :=
  of.files.read member

/-- Sources at one place are one source, if it can be read as a unit. -/
theorem Of.eq_of_place (of : v.Of i k.config tree)
    (apart : v.files.Pairwise SourceFile.NamedApart) {file other : SourceFile}
    (member : file ∈ v.files) (member' : other ∈ v.files) {unit : SourceUnit}
    (inside : unit ∈ file.unit?) (place : tree.locate? file.path = tree.locate? other.path) :
    file = other := by
  by_contra different
  have symm : Std.Symm SourceFile.NamedApart := ⟨fun _ _ => SourceFile.NamedApart.symm⟩
  have named := apart.forall member member' different
  have node := FileTree.node_congr place
  rw [FileTree.read_eq_ok.1 (of.read member).1, FileTree.read_eq_ok.1 (of.read member').1] at node
  exact named.text_ne inside (FileNode.text.inj (Except.ok.inj node))

theorem Of.stale_sublist (of : v.Of i k.config tree) : v.stale.Sublist v.files :=
  of.stale_eq ▸ List.filter_sublist

theorem results_files : (v.results k).map Prod.fst = v.stale :=
  List.map_fst_zip (Nat.le_of_eq (k.preprocessor.run_results v.stale k.stored).length_eq)

theorem mem_results {e : SourceFile × UnitResult} (member : e ∈ v.results k) :
    e.1 ∈ v.stale ∧ UnitResult.Of e.1 e.2 :=
  ⟨(List.of_mem_zip member).1,
    (List.forall₂_iff_zip.1 (k.preprocessor.run_results v.stale k.stored)).2 member⟩

theorem results_apart (apart : v.stale.Pairwise SourceFile.NamedApart) :
    (v.results k).Pairwise fun e e' => e.1.NamedApart e'.1 := by
  rw [← List.pairwise_map (f := Prod.fst), results_files]
  exact apart

theorem Of.elsewhere (of : v.Of i k.config tree)
    (apart : v.files.Pairwise SourceFile.NamedApart) : (v.results k).Pairwise Elsewhere := by
  have named := results_apart (k := k) (apart.sublist of.stale_sublist)
  have read {e : SourceFile × UnitResult} (member : e ∈ v.results k) :
      tree.read e.1.path = .ok e.1.text :=
    (of.read (of.stale_sublist.subset (mem_results member).1)).1
  have unit {e : SourceFile × UnitResult} (member : e ∈ v.results k)
      (passed : e.2.rewritten ≠ none) : ∃ unit, unit ∈ e.1.unit? := by
    cases (mem_results member).2 with
    | passed _ _ unit _ _ inside _ => exact ⟨unit, inside⟩
    | failed none_ _ => exact absurd none_ passed
  refine named.imp_of_mem fun {e e'} member member' named passed path => ?_
  have same : e.1.text = e'.1.text :=
    Except.ok.inj ((read member).symm.trans ((congrArg tree.read path).trans (read member')))
  rcases passed with passed | passed
  · obtain ⟨unit, inside⟩ := unit member passed
    exact named.text_ne inside same
  · obtain ⟨unit, inside⟩ := unit member' passed
    exact named.symm.text_ne inside same.symm

/-- What is there once a run has ended. The database and the report have places of their own. -/
theorem leaves {verbose : Bool} {output : String} {before after : FileTree} {state : RunState}
    (of : v.Of i k.config before) (writes : v.Writes k verbose output before state after)
    (apart : v.files.Pairwise SourceFile.NamedApart)
    (database : before.NoSource (k.config.resolve k.config.url))
    (report : before.NoSource output)
    (place : before.locate? output ≠ before.locate? (k.config.resolve RunState.fileName)) :
    Stored (v.MayWrite k before) (k.config.resolve k.config.outDir) (v.results k) v.state state
        before after ∧
      after.read (k.config.resolve RunState.fileName) = .ok state.toJson.pretty := by
  obtain ⟨s₁, s₂, generated, tree₃, tree₄, text, kept, stores, generates, wrote, saved,
    reported⟩ := writes.parts
  have quiet : ∀ names node, SourceFile.isSource (names.getLastD "") = false →
      v.MayWrite k before names node := fun _ _ noSource => .inl noSource
  have first : Changes (v.MayWrite k before) before s₁.tree := by
    rcases kept with same | ⟨node, file, written⟩
    · rw [same]
      exact .refl
    · exact (database.writeNode_changes written file fun names located =>
        quiet names _ (database names located)).1
  have read {e : SourceFile × UnitResult} (member : e ∈ v.results k) :
      before.node e.1.path = .ok (.text e.1.text) :=
    FileTree.read_eq_ok.1 (of.read (of.stale_sublist.subset (mem_results member).1)).1
  have stored : Stored (v.MayWrite k before) (k.config.resolve k.config.outDir) (v.results k)
      v.state state s₁.tree s₂.tree := runs_stores stores
    (fun e member => (mem_results member).2) (of.elsewhere apart) quiet
    (fun e member text written names located =>
      .inr ⟨e, member, text, written, rfl, first.locate? _ ▸ located⟩)
    fun e member => by
      obtain ⟨node, found, _⟩ := first.node_stays (read member)
      exact ⟨node, found⟩
  have second : Changes (v.MayWrite k before) s₂.tree tree₃ :=
    writeAll_changes wrote (generate_endsWith generates) quiet
  have ends : Path.EndsWith RunState.fileName 'n' := ⟨by decide, by decide, by decide⟩
  obtain ⟨third, there⟩ := (FileTree.noSource_of_endsWith (ends.join k.config.projectRoot)
    (by decide) tree₃).writeNode_changes saved rfl fun names located => quiet names _
      (FileTree.noSource_of_endsWith (ends.join _) (by decide) tree₃ names located)
  have sofar : Changes (v.MayWrite k before) before tree₄ :=
    ((first.trans stored.changes).trans second).trans third
  have report' : tree₄.NoSource output := fun names located =>
    report names (sofar.locate? output ▸ located)
  obtain ⟨last, _⟩ := report'.writeDeep_changes reported fun names located =>
    quiet names _ (report' names located)
  refine ⟨stored.between first ((second.trans third).trans last), ?_⟩
  -- The report is written somewhere else than the state.
  have only : Changes (fun names _ => before.locate? output = some names) tree₄ after ∧
      after.node output = .ok (.text text) :=
    report'.writeDeep_changes reported fun names located => sofar.locate? output ▸ located
  obtain ⟨node, found, _, rfl | ⟨names, located, same⟩⟩ := only.1.node_stays there
  · exact FileTree.read_eq_ok.2 found
  · rw [sofar.locate?] at located
    exact absurd (same.trans located.symm) place

end Survey

end SqlUnits.Command
