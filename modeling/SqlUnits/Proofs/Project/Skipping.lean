import SqlUnits.Proofs.Artifact.Fields
import SqlUnits.Proofs.Project.Storing
import SqlUnits.Proofs.Project.Texts
/-!
A run that skips some sources, beside one that checks all of them. If what is skipped would be left
as it is, both generate the same code, and write the same to sources and to files of code.
-/

namespace SqlUnits

namespace Code

/-- The extension of files of code. -/
def extension : String := "rs"

theorem snakeCase_ne_empty {name : String} (named : name ≠ "") : snakeCase name ≠ "" := by
  have chars : name.toList ≠ [] := by simpa using named
  intro empty
  have none_ : snakeFrom false name.toList = [] := by
    simpa [snakeCase] using congrArg String.toList empty
  cases whole : name.toList with
  | nil => exact chars whole
  | cons c rest =>
      rw [whole, snakeFrom] at none_
      split at none_ <;> simp at none_

/-- The files of code for units that have names are those of code. -/
theorem generate_extension {units : List TypedUnit} {rowNamespace : String}
    {files : List GeneratedFile} (made : generate units rowNamespace = .ok files)
    (named : ∀ unit ∈ units, Scanner.IsName unit.unit.toList) :
    ∀ file ∈ files, Path.extension? file.path = some extension := by
  have own (unit : TypedUnit) (name : Scanner.IsName unit.unit.toList) :
      Path.extension? (snakeCase unit.unit ++ ".rs") = some extension := by
    have plain : IsPlain (snakeCase unit.unit) := snakeCase_isIdent name.all
    have some_ : unit.unit ≠ "" := fun empty => name.nonempty (by rw [empty]; rfl)
    have ends : Path.EndsWith extension 's' := ⟨by decide, by decide, by decide⟩
    have letters : ∀ c ∈ extension.toList, c ≠ '/' ∧ c ≠ '.' := by
      have chars : extension.toList = ['r', 's'] := rfl
      simp [chars]
    have known := Path.extension?_append (plain.not_mem (by decide)) (snakeCase_ne_empty some_)
      ends letters
    rwa [String.append_assoc] at known
  have list : Path.extension? "mod.rs" = some extension := by decide
  obtain ⟨perUnit, sorted, mapped, _, rfl⟩ := generate_parts made
  intro file member
  rcases List.mem_append.1 member with inUnit | inLists
  · obtain ⟨files, inside, among⟩ := List.mem_flatten.1 inUnit
    obtain ⟨unit, member, one⟩ := (forall₂_mem (mapM_eq_ok_iff.1 mapped)).2 files inside
    have path := List.mem_map_of_mem (f := GeneratedFile.path) among
    rw [unitFiles_paths one] at path
    simp only [List.mem_cons, List.not_mem_nil, or_false] at path
    rcases path with same | same
    · rw [same]
      exact own unit (named unit member)
    · rw [same]
      exact Path.extension?_join (own unit (named unit member)) rowNamespace
  · simp only [List.mem_cons, List.not_mem_nil, or_false] at inLists
    rcases inLists with rfl | rfl
    · exact list
    · exact Path.extension?_join list rowNamespace

/-- Code is generated for artifacts in order of the names of their units, which do not depend on the
order in which the artifacts were made. -/
theorem generate_sorted {units others : List TypedUnit}
    (same : (units.map (·.unmarked)).Perm (others.map (·.unmarked)))
    (apart : others.Pairwise fun a b => a.unit ≠ b.unit) (rowNamespace : String) :
    generate (units.mergeSort fun a b => a.unit ≤ b.unit) rowNamespace =
      generate (others.mergeSort fun a b => a.unit ≤ b.unit) rowNamespace := by
  let atMost (a b : TypedUnit) : Bool := a.unit ≤ b.unit
  have sorts (units : List TypedUnit) : (units.mergeSort atMost).map (·.unmarked) =
      (units.map (·.unmarked)).mergeSort atMost :=
    List.map_mergeSort fun _ _ _ _ => rfl
  have trans (a b c : TypedUnit) (first : atMost a b = true) (second : atMost b c = true) :
      atMost a c = true :=
    decide_eq_true (String.le_trans (of_decide_eq_true first) (of_decide_eq_true second))
  have total (a b : TypedUnit) : (atMost a b || atMost b a) = true := by
    rw [Bool.or_eq_true]
    exact (String.le_total a.unit b.unit).imp decide_eq_true decide_eq_true
  have sorted (units : List TypedUnit) :
      (units.mergeSort atMost).Pairwise fun a b => atMost a b = true :=
    List.pairwise_mergeSort trans total units
  have apart : (others.map (·.unmarked)).Pairwise fun a b => a.unit ≠ b.unit :=
    List.pairwise_map.2 apart
  have perm : ((units.map (·.unmarked)).mergeSort atMost).Perm
      ((others.map (·.unmarked)).mergeSort atMost) :=
    ((List.mergeSort_perm _ _).trans same).trans (List.mergeSort_perm _ _).symm
  rw [← generate_unmarked, ← generate_unmarked (others.mergeSort _), sorts, sorts]
  congr 1
  -- One name stands for one unit, so the order of names leaves only one order of units.
  refine perm.eq_of_pairwise (fun a b member member' first second => ?_) (sorted _) (sorted _)
  have name : a.unit = b.unit :=
    String.le_antisymm (of_decide_eq_true first) (of_decide_eq_true second)
  by_contra different
  have symm : Std.Symm fun a b : TypedUnit => a.unit ≠ b.unit := ⟨fun _ _ => Ne.symm⟩
  exact apart.forall (same.subset (List.mem_mergeSort.1 member)) (List.mem_mergeSort.1 member')
    different name

end Code

namespace Command

open FileTree (SameTexts)

/-! Places of code. -/

/-- Where sources and files of code are kept. -/
def CodePlace (names : List String) : Prop :=
  SourceFile.isSource (names.getLastD "") = true ∨
    Path.extension? (names.getLastD "") = some Code.extension

/-- No source and no code is kept at a path. -/
def NoCode (tree : FileTree) (path : String) : Prop :=
  ∀ names, tree.locate? path = some names → ¬CodePlace names

variable {tree other next next' before before' after after' : FileTree} {path : String}

theorem noCode_of_endsWith {c : Char} (ends : Path.EndsWith path c) (noSource : c ≠ 'p')
    (noCode : c ≠ 's') : NoCode tree path := by
  rintro names located (source | code)
  · rw [FileTree.locate?_other ends noSource located] at source
    cases source
  · exact noCode (Option.some.inj (FileTree.locate?_extension_last ends located code)).symm

theorem NoCode.congr (noCode : NoCode tree path) (home : other.home = tree.home) :
    NoCode other path := by
  intro names located
  exact noCode names (FileTree.locate?_congr home path ▸ located)

/-- What is read as a source or as code is the same where these are kept the same. -/
theorem read_iff (same : SameTexts CodePlace tree other)
    (code : SourceFile.isSource path = true ∨ Path.extension? path = some Code.extension)
    (text : String) : tree.read path = .ok text ↔ other.read path = .ok text := by
  have inside (names : List String) (some_ : names ≠ [])
      (located : tree.locate? path = some names) : CodePlace names := by
    rcases code with source | code
    · exact .inl (FileTree.locate?_source source located some_)
    · exact .inr (FileTree.locate?_extension code located some_)
  rw [FileTree.read_iff_textAt?, FileTree.read_iff_textAt?, same.locate?]
  refine exists_congr fun names => and_congr_right fun located => ?_
  cases names with
  | nil => rfl
  | cons name names => rw [same.texts _ (inside _ (List.cons_ne_nil _ _) located)]

/-! Results side by side. -/

/-- The results of a run that skips what is marked as fresh, beside those of a run that skips
nothing. -/
inductive Beside : List Staleness → List (SourceFile × UnitResult) →
    List (SourceFile × UnitResult) → Prop
  | none : Beside [] [] []
  | stale {file : SourceFile} {r r' : UnitResult} {marks : List Staleness}
      {results results' : List (SourceFile × UnitResult)} :
      r'.rewritten = r.rewritten → r'.typed = r.typed → Beside marks results results' →
      Beside (.stale file :: marks) ((file, r) :: results) ((file, r') :: results')
  | fresh {file : SourceFile} {typed : TypedUnit} {r' : UnitResult} {marks : List Staleness}
      {results results' : List (SourceFile × UnitResult)} :
      r'.rewritten = some file.text → r'.typed.map (·.unmarked) = some typed.unmarked →
      Beside marks results results' →
      Beside (.fresh file.path typed :: marks) results ((file, r') :: results')

variable {marks : List Staleness} {results results' : List (SourceFile × UnitResult)}
  {outDir : String} {state state' last last' : RunState}

theorem beside_of_results {files : List SourceFile} {units units' : List UnitResult}
    {made made' : SourceFile → UnitResult → Prop}
    (marked : List.Forall₂ (Marked state outDir tree) files marks)
    (here : List.Forall₂ made (marks.filterMap (·.stale?)) units)
    (there : List.Forall₂ made' files units')
    (stale : ∀ file ∈ files, ∀ r r', made file r → made' file r' →
      r'.rewritten = r.rewritten ∧ r'.typed = r.typed)
    (fresh : ∀ file ∈ files, ∀ typed, Marked state outDir tree file (.fresh file.path typed) →
      ∀ r', made' file r' → r'.rewritten = some file.text ∧
        r'.typed.map (·.unmarked) = some typed.unmarked) :
    Beside marks ((marks.filterMap (·.stale?)).zip units) (files.zip units') := by
  induction marked generalizing units units' with
  | nil =>
      cases here
      exact .none
  | @cons file mark files marks one _ ih =>
      obtain ⟨staleOne, stale⟩ := List.forall_mem_cons.1 stale
      obtain ⟨freshOne, fresh⟩ := List.forall_mem_cons.1 fresh
      cases there with
      | @cons _ r' _ _ first' there =>
          cases one with
          | stale none_ =>
              cases here with
              | @cons _ r _ _ first here =>
                  obtain ⟨text, typed⟩ := staleOne r r' first first'
                  exact .stale text typed (ih here there stale fresh)
          | @fresh _ _ typed some_ read known =>
              obtain ⟨text, typed⟩ := freshOne typed (.fresh some_ read known) r' first'
              exact .fresh text typed (ih here there stale fresh)

/-- The artifacts are the same, but for what is said of where fields are written. -/
theorem Beside.typed (beside : Beside marks results results') :
    (((marks.filterMap (·.fresh?)).map (·.2) ++ results.filterMap (·.2.typed)).map
      (·.unmarked)).Perm ((results'.filterMap (·.2.typed)).map (·.unmarked)) := by
  induction beside with
  | none => exact .refl _
  | @stale file r r' marks results results' _ typed _ ih =>
      simp only [List.filterMap_cons, Staleness.fresh?, typed]
      cases r.typed with
      | none => exact ih
      | some made =>
          refine .trans ?_ (ih.cons made.unmarked)
          rw [List.map_append, List.map_append, List.map_cons]
          exact List.perm_middle
  | @fresh file typed r' marks results results' _ known _ ih =>
      obtain ⟨made, found, same⟩ := Option.map_eq_some_iff.1 known
      simp only [List.filterMap_cons, Staleness.fresh?, found, List.map_cons, List.cons_append,
        same]
      exact ih.cons typed.unmarked

/-! What is written. -/

theorem Stores.home {file : SourceFile} {r : UnitResult}
    (stores : Stores outDir state file r before last after) : after.home = before.home := by
  cases stores with
  | failed _ => rfl
  | passed _ _ rewritten deep =>
      refine (FileTree.writeDeep_texts deep).1.trans ?_
      split at rewritten
      · rw [rewritten]
      · exact (FileTree.writeNode_texts rewritten).1

theorem stores_home {verbose : Bool} {s t : Session}
    (runs : Runs (results.foldlM (store outDir verbose) state) s last t) :
    t.tree.home = s.tree.home := by
  induction results generalizing state s with
  | nil =>
      obtain ⟨_, rfl⟩ := runs_pure.1 runs
      rfl
  | cons result results ih =>
      rw [List.foldlM_cons] at runs
      obtain ⟨_, _, one, others⟩ := runs_bind.1 runs
      exact (ih others).trans (runs_store one).home

/-- Results that write the same to a source are stored alike. -/
theorem Stores.both {file : SourceFile} {r r' : UnitResult}
    (same : SameTexts CodePlace before before')
    (stores : Stores outDir state file r before last after)
    (stores' : Stores outDir state' file r' before' last' after')
    (text : r'.rewritten = r.rewritten) (typed : r'.typed = r.typed) :
    SameTexts CodePlace after after' := by
  cases stores with
  | @passed _ _ between _ written artifact rewritten deep =>
      cases stores' with
      | failed none_ => exact absurd (typed.trans artifact) (none_ _ _ (text.trans written))
      | @passed _ _ between' _ written' artifact' rewritten' deep' =>
          obtain rfl := Option.some.inj ((text.trans written).symm.trans written')
          have alike : SameTexts CodePlace between between' := by
            split at rewritten
            · next unchanged =>
              rw [if_pos unchanged] at rewritten'
              subst rewritten rewritten'
              exact same
            · next changed =>
              rw [if_neg changed] at rewritten'
              exact same.writeNode_both rewritten rewritten'
          have apart (tree : FileTree) (unit : String) :
              NoCode tree (Path.join outDir (artifactPath unit)) :=
            noCode_of_endsWith (artifactPath_endsWith outDir unit) (by decide) (by decide)
          exact ((SameTexts.writeDeep deep (apart _ _)).symm.trans alike).trans
            (.writeDeep deep' (apart _ _))
  | failed none_ =>
      cases stores' with
      | failed _ => exact same
      | passed written' artifact' _ _ =>
          exact absurd (typed.symm.trans artifact') (none_ _ _ (text.symm.trans written'))

/-- What is stored for a source that keeps its text is an artifact. -/
theorem Stores.kept {file : SourceFile} {r : UnitResult}
    (stores : Stores outDir state file r before last after) (text : r.rewritten = some file.text) :
    SameTexts CodePlace before after := by
  cases stores with
  | failed _ => exact .refl _ _
  | passed written _ rewritten deep =>
      obtain rfl := Option.some.inj (text.symm.trans written)
      rw [if_pos rfl] at rewritten
      rw [← rewritten]
      exact .writeDeep deep
        (noCode_of_endsWith (artifactPath_endsWith outDir _) (by decide) (by decide))

theorem Beside.stores {verbose verbose' : Bool} {s s' t t' : Session}
    (beside : Beside marks results results') (same : SameTexts CodePlace s.tree s'.tree)
    (runs : Runs (results.foldlM (store outDir verbose) state) s last t)
    (runs' : Runs (results'.foldlM (store outDir verbose') state') s' last' t') :
    SameTexts CodePlace t.tree t'.tree := by
  induction beside generalizing state state' s s' with
  | none =>
      obtain ⟨rfl, rfl⟩ := runs_pure.1 runs
      obtain ⟨rfl, rfl⟩ := runs_pure.1 runs'
      exact same
  | stale text typed _ ih =>
      rw [List.foldlM_cons] at runs runs'
      obtain ⟨_, _, one, others⟩ := runs_bind.1 runs
      obtain ⟨_, _, one', others'⟩ := runs_bind.1 runs'
      exact ih (Stores.both same (runs_store one) (runs_store one') text typed) others others'
  | fresh text _ _ ih =>
      rw [List.foldlM_cons] at runs'
      obtain ⟨_, _, one', others'⟩ := runs_bind.1 runs'
      exact ih (same.trans (Stores.kept (runs_store one') text)) runs others'

namespace Survey

variable {v v' : Survey} {k k' : Settings} {verbose verbose' : Bool} {output output' : String}

theorem typed_eq (v : Survey) (k : Settings) :
    v.typed k = v.fresh.map (·.2) ++ (v.results k).filterMap (·.2.typed) := by
  have units : (v.results k).map Prod.snd = (k.run v.stale).units :=
    List.map_snd_zip (Nat.le_of_eq (k.preprocessor.run_results v.stale k.stored).length_eq.symm)
  unfold typed
  rw [Settings.run, Preprocessor.run_typed, ← Settings.run, ← units, List.filterMap_map]
  rfl

/-- The code of a run is that of another one that skips nothing. -/
theorem code_eq (beside : Beside v.marks (v.results k) (v'.results k')) (all : v'.fresh = [])
    (apart : ((v'.results k').filterMap (·.2.typed)).Pairwise fun a b => a.unit ≠ b.unit)
    (config : k'.config = k.config) : v'.code k' = v.code k := by
  have whole : v'.typed k' = (v'.results k').filterMap (·.2.typed) := by
    rw [typed_eq, all]
    rfl
  unfold code
  rw [whole, config]
  refine (Code.generate_sorted ?_ apart _).symm
  rw [typed_eq]
  exact beside.typed

/-- What a run leaves in the places of sources and code: what it stores, and the code. -/
theorem Writes.code_places (writes : v.Writes k verbose output before state after)
    (database : NoCode before (k.config.resolve k.config.url)) (report : NoCode before output) :
    ∃ s t : Session, ∃ generated tree₃, SameTexts CodePlace before s.tree ∧
      Runs ((v.results k).foldlM (store (k.config.resolve k.config.outDir) verbose) v.state) s state
        t ∧
      v.code k = .ok generated ∧
      generated.foldlM (fun tree file => tree.writeDeep
        (Path.join (k.config.resolve k.config.outDir) file.path) file.contents) t.tree = .ok tree₃ ∧
      SameTexts CodePlace tree₃ after := by
  obtain ⟨s, t, generated, tree₃, tree₄, _, kept, stores, generates, wrote, saved, reported⟩ :=
    writes.parts
  have first : SameTexts CodePlace before s.tree := by
    rcases kept with same | ⟨node, _, written⟩
    · rw [same]
      exact .refl _ _
    · exact .writeNode written database
  have home : tree₃.home = before.home := by
    have code : SameTexts (fun _ => False) t.tree tree₃ := .writeAll wrote fun _ _ _ _ => id
    exact code.home.trans ((stores_home stores).trans first.home)
  have ends : Path.EndsWith RunState.fileName 'n' := ⟨by decide, by decide, by decide⟩
  have third : SameTexts CodePlace tree₃ tree₄ :=
    .writeNode saved (noCode_of_endsWith (ends.join k.config.projectRoot) (by decide) (by decide))
  have fourth : SameTexts CodePlace tree₄ after :=
    .writeDeep reported (report.congr (third.home.trans home))
  exact ⟨s, t, generated, tree₃, first, stores, generates, wrote, third.trans fourth⟩

/-- A run that skips sources leaves the same sources and code as one that skips nothing. -/
theorem same_texts (beside : Beside v.marks (v.results k) (v'.results k'))
    (code : v'.code k' = v.code k) (config : k'.config = k.config)
    (writes : v.Writes k verbose output before state after)
    (writes' : v'.Writes k' verbose' output' before state' after')
    (database : NoCode before (k.config.resolve k.config.url)) (report : NoCode before output)
    (report' : NoCode before output') : SameTexts CodePlace after after' := by
  obtain ⟨s, t, generated, tree₃, opens, stores, generates, wrote, closes⟩ :=
    writes.code_places database report
  obtain ⟨s', t', generated', tree₃', opens', stores', generates', wrote', closes'⟩ :=
    writes'.code_places (config ▸ database) report'
  rw [config] at stores' wrote'
  cases (generates.symm.trans code.symm).trans generates'
  have stored : SameTexts CodePlace t.tree t'.tree :=
    beside.stores (opens.symm.trans opens') stores stores'
  have coded : SameTexts CodePlace tree₃ tree₃' := stored.writeAll_both wrote wrote'
  exact (closes.symm.trans coded).trans closes'

end Survey

end Command

end SqlUnits
