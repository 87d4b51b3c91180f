import Mathlib.Logic.Relation
import SqlUnits.Project.Command
import SqlUnits.Proofs.Check.Binding
import SqlUnits.Proofs.Text.Path
/-!
What writing files does to a tree. Files are replaced and added, directories only added; so what is
there stays there as a file or a directory, and what is not written keeps its contents.
-/

namespace SqlUnits

namespace FileTree

variable {tree before after : FileTree} {path : String} {names other : List String}
  {node : FileNode}

theorem lookup_putAt (names other : List String) (node : FileNode)
    (nodes : List (List String × FileNode)) :
    (putAt names node nodes).lookup other =
      if other == names then some node else nodes.lookup other := by
  induction nodes with
  | nil => rw [putAt, List.lookup_cons]; cases other == names <;> rfl
  | cons entry rest ih =>
      unfold putAt
      split
      · next same =>
        obtain ⟨first, old⟩ := entry
        obtain rfl : first = names := beq_iff_eq.1 same
        rw [List.lookup_cons, List.lookup_cons]
        cases other == first <;> rfl
      · next apart =>
        obtain ⟨first, old⟩ := entry
        rw [List.lookup_cons, List.lookup_cons, ih]
        by_cases here : other = first
        · subst here
          have apart : (other == names) = false := by simpa using apart
          simp only [beq_self_eq_true, apart, Bool.false_eq_true, if_false]
        · have there : (other == first) = false := beq_eq_false_iff_ne.2 here
          simp only [there]

theorem find?_put (named : names ≠ []) (tree : FileTree) (node : FileNode)
    (other : List String) :
    (tree.put names node).find? other = if other = names then some node else tree.find? other := by
  unfold find? put
  by_cases start : other = []
  · subst start
    have apart : ¬[] = names := fun same => named same.symm
    simp [apart]
  · have notEmpty : other.isEmpty = false := by simpa using start
    simp only [notEmpty, Bool.false_eq_true, if_false, lookup_putAt, beq_iff_eq]

theorem follow_last {before : List String} {last : String} (named : last ≠ "..")
    {back names : List String} (followed : follow back (before ++ [last]) = some names) :
    names.getLast? = some last := by
  induction before generalizing back with
  | nil =>
      rw [List.nil_append] at followed
      unfold follow at followed
      split at followed
      · contradiction
      · next same =>
        cases same
        contradiction
      · next same =>
        cases same
        unfold follow at followed
        cases followed
        simp
  | cons part before ih =>
      rw [List.cons_append] at followed
      unfold follow at followed
      split at followed
      · contradiction
      · next same =>
        cases same
        split at followed
        · cases followed
        · exact ih followed
      · next same =>
        cases same
        exact ih followed

/-- What a path leads to has the last part of the path as its name. -/
theorem locate?_named {start : List String} {last : String}
    (shape : Path.parts path = start ++ [last]) (named : last ≠ "..")
    (located : tree.locate? path = some names) : ∀ found ∈ names.getLast?, found = last := by
  have behind {start : List String} (followed : follow [] (start ++ [last]) = some names) :
      ∀ found ∈ names.getLast?, found = last := by
    intro found member
    rw [follow_last named followed] at member
    exact (Option.some.inj member).symm
  unfold locate? at located
  simp only [shape] at located
  split at located
  · cases located
  · split at located
    · split at located
      · -- Below the working directory, or the directory itself.
        rw [List.drop_append] at located
        rcases Nat.lt_or_ge start.length (Path.parts tree.home).length with beyond | within
        · have none_ : [last].drop ((Path.parts tree.home).length - start.length) = [] :=
            List.drop_eq_nil_of_le (by simp; omega)
          have first : start.drop (Path.parts tree.home).length = [] :=
            List.drop_eq_nil_of_le (Nat.le_of_lt beyond)
          rw [none_, first] at located
          cases located
          exact nofun
        · have all : (Path.parts tree.home).length - start.length = 0 := by omega
          rw [all, List.drop_zero] at located
          exact behind located
      · cases located
    · exact behind located

/-- A file is kept under a name that ends as its path does. -/
theorem locate?_last {c : Char} (ends : Path.EndsWith path c)
    (located : tree.locate? path = some names) :
    ∀ last ∈ names.getLast?, Path.EndsWith last c := by
  obtain ⟨start, last, shape, lastEnds⟩ := Path.parts_last ends
  have named : last ≠ ".." := by
    rintro rfl
    exact lastEnds.2.2 (Option.some.inj lastEnds.1).symm
  intro found member
  rw [locate?_named shape named located found member]
  exact lastEnds

/-- An extension of what a path leads to ends as the path does. -/
theorem locate?_extension_last {c : Char} (ends : Path.EndsWith path c)
    (located : tree.locate? path = some names) {extension : String}
    (known : Path.extension? (names.getLastD "") = some extension) :
    extension.toList.getLast? = some c := by
  cases found : names.getLast? with
  | none =>
      obtain rfl := List.getLast?_eq_none_iff.1 found
      cases known
  | some last =>
      rw [List.getLastD_eq_getLast?, found] at known
      exact Path.extension?_last (locate?_last ends located last found) known

/-- A path with another ending than that of sources leads to no source. -/
theorem locate?_other {c : Char} (ends : Path.EndsWith path c) (other : c ≠ 'p')
    (located : tree.locate? path = some names) :
    SourceFile.isSource (names.getLastD "") = false := by
  show (Path.extension? (names.getLastD "") == some SourceFile.fileExtension) = false
  rw [beq_eq_false_iff_ne]
  intro same
  exact other (Option.some.inj (locate?_extension_last ends located same)).symm

/-- What a path leads to has the extension of the path. -/
theorem locate?_extension {extension : String} (known : Path.extension? path = some extension)
    (located : tree.locate? path = some names) (named : names ≠ []) :
    Path.extension? (names.getLastD "") = some extension := by
  cases parts : (Path.parts path).getLast? with
  | none =>
      rw [Path.extension?, parts] at known
      cases known
  | some last =>
      obtain ⟨start, shape⟩ := List.getLast?_eq_some_iff.1 parts
      have inside : last ∈ Path.parts path := by simp [shape]
      have one : Path.parts last = [last] := Path.parts_of_mem inside
      have same : Path.extension? last = Path.extension? path :=
        Path.extension?_congr (by rw [one, parts]; rfl)
      have up : last ≠ ".." := by
        rintro rfl
        rw [← same] at known
        cases known
      have found : names.getLast? = some last := by
        obtain ⟨found, there⟩ := Option.ne_none_iff_exists'.1 (mt List.getLast?_eq_none_iff.1 named)
        rw [there, locate?_named shape up located found there]
      rw [List.getLastD_eq_getLast?, found]
      exact same.trans known

/-- The path of a source leads to a source. -/
theorem locate?_source (source : SourceFile.isSource path = true)
    (located : tree.locate? path = some names) (named : names ≠ []) :
    SourceFile.isSource (names.getLastD "") = true :=
  beq_iff_eq.2 (locate?_extension (beq_iff_eq.1 source) located named)

theorem isSource_join (source : SourceFile.isSource path = true) (base : String) :
    SourceFile.isSource (Path.join base path) = true :=
  beq_iff_eq.2 (Path.extension?_join (beq_iff_eq.1 source) base)

/-! Searches. -/

theorem mem_of_mem_distinct {paths : List String} (member : path ∈ Path.distinct paths) :
    path ∈ paths := by
  induction paths with
  | nil => cases member
  | cons first rest ih =>
      unfold Path.distinct at member
      have among {kept : List String} (inside : path ∈ first :: kept)
          (sub : ∀ p ∈ kept, p ∈ Path.distinct rest)
          (ih : path ∈ Path.distinct rest → path ∈ rest) : path ∈ first :: rest := by
        rcases List.mem_cons.1 inside with rfl | later
        · exact List.mem_cons_self
        · exact List.mem_cons_of_mem first (ih (sub path later))
      split at member
      · exact among member nofun ih
      · next next more shape =>
        split at member
        · exact among member (fun p inside => shape ▸ List.mem_cons_of_mem next inside) ih
        · exact among member (fun p inside => shape ▸ inside) ih

theorem isSource_of_under {root : String} {found : List String}
    (ended : SourceFile.under tree root = .ok found) :
    ∀ path ∈ found, SourceFile.isSource path = true := by
  intro path member
  unfold SourceFile.under at ended
  cases there : tree.node root with
  | error e =>
      rw [there] at ended
      cases ended
  | ok node =>
      rw [there] at ended
      have file (ended : (if SourceFile.isSource root then [root] else []) = found) :
          SourceFile.isSource path = true := by
        split at ended
        · next source =>
          subst ended
          rw [List.mem_singleton.1 member]
          exact source
        · subst ended
          cases member
      cases node with
      | directory =>
          cases ended
          obtain ⟨⟨names, node⟩, inside, rfl⟩ := List.mem_map.1 member
          have source := (List.mem_filter.1 inside).2
          simp only [Bool.and_eq_true] at source
          obtain ⟨⟨_, source⟩, _⟩ := source
          cases found : names.getLast? with
          | none =>
              obtain rfl := List.getLast?_eq_none_iff.1 found
              cases source
          | some last =>
              obtain ⟨start, rfl⟩ := List.getLast?_eq_some_iff.1 found
              rw [List.getLastD_concat] at source
              show SourceFile.isSource ((start ++ [last]).foldl Path.join root) = true
              rw [List.foldl_concat]
              exact isSource_join source _
      | text | database => exact file (Except.ok.inj ended)

/-- What is found are sources. -/
theorem isSource_of_discover {roots found : List String}
    (ended : SourceFile.discover roots tree = .ok found) :
    ∀ path ∈ found, SourceFile.isSource path = true := by
  intro path member
  unfold SourceFile.discover at ended
  cases searched : roots.mapM fun root =>
      (SourceFile.under tree root).mapError (SourceFile.scanError root) with
  | error e =>
      rw [searched] at ended
      cases ended
  | ok all =>
      rw [searched] at ended
      cases ended
      obtain ⟨paths, inside, among⟩ :=
        List.mem_flatten.1 (List.mem_mergeSort.1 (mem_of_mem_distinct member))
      obtain ⟨root, _, one⟩ := (forall₂_mem (mapM_eq_ok_iff.1 searched)).2 paths inside
      exact isSource_of_under (mapError_eq_ok.1 one) path among

/-! Sources. -/

/-- The places of the files that could be sources. -/
def sources (tree : FileTree) : List (List String) :=
  (tree.nodes.filter fun e =>
    !e.2.isDirectory && SourceFile.isSource (e.1.getLastD "")).map (·.1)

/-- What lies below a directory has its name also when it is seen from there. -/
theorem getLastD_drop {start names : List String} (inside : start.isPrefixOf names = true)
    (below : names ≠ start) : (names.drop start.length).getLastD "" = names.getLastD "" := by
  obtain ⟨rest, rfl⟩ := List.isPrefixOf_iff_prefix.1 inside
  have deeper : rest ≠ [] := by
    rintro rfl
    exact below (List.append_nil start)
  rw [List.drop_left' rfl, List.getLastD_eq_getLast?, List.getLastD_eq_getLast?,
    List.getLast?_append_of_ne_nil start deeper]

/-- What a search below a directory finds, by the places of sources alone. -/
theorem under_directory {root : String} {start : List String}
    (located : tree.locate? root = some start) (found : tree.node root = .ok .directory) :
    SourceFile.under tree root = .ok
      ((tree.sources.filter fun names => start.isPrefixOf names && names != start &&
        !(names.drop start.length).dropLast.any SourceFile.isIgnored).map fun names =>
          (names.drop start.length).foldl Path.join root) := by
  unfold SourceFile.under
  simp only [found, located, bind, Except.bind, pure, Except.pure, Option.getD_some]
  unfold below sources
  rw [List.filter_map, List.filter_map, List.filter_filter, List.filter_filter, List.map_map,
    List.map_map]
  congr 2
  apply List.filter_congr
  intro e _
  simp only [Function.comp_apply]
  by_cases inside : (start.isPrefixOf e.1 && e.1 != start) = true
  · obtain ⟨within, apart⟩ := Bool.and_eq_true_iff.1 inside
    rw [getLastD_drop within (bne_iff_ne.1 apart), inside, Bool.true_and, Bool.and_true,
      Bool.and_comm]
  · rw [Bool.not_eq_true] at inside
    rw [inside, Bool.and_false, Bool.false_and, Bool.false_and]

theorem under_file {root : String} (found : tree.node root = .ok node)
    (file : node.isDirectory = false) :
    SourceFile.under tree root = .ok (if SourceFile.isSource root then [root] else []) := by
  unfold SourceFile.under
  simp only [found, bind, Except.bind]
  cases node with
  | directory => cases file
  | text | database => rfl

theorem locate?_of_node (found : tree.node path = .ok node) :
    ∃ names, tree.locate? path = some names ∧ tree.find? names = some node := by
  unfold FileTree.node at found
  cases located : tree.locate? path with
  | none =>
      rw [located] at found
      cases found
  | some names =>
      simp only [located] at found
      cases there : tree.find? names with
      | none =>
          rw [there] at found
          cases found
      | some old =>
          rw [there] at found
          cases found
          exact ⟨names, rfl, there⟩

theorem node_of_find? (located : tree.locate? path = some names)
    (found : tree.find? names = some node) : tree.node path = .ok node := by
  unfold FileTree.node
  simp only [located, found]

/-! Steps. -/

/-- A step that writes one file or makes one directory. Only files that were there before may be
sources. -/
inductive Change (may : List String → FileNode → Prop) : FileTree → FileTree → Prop
  | replace {tree : FileTree} {names : List String} {old node : FileNode} :
      tree.find? names = some old → old.isDirectory = false → node.isDirectory = false →
      may names node → Change may tree (tree.put names node)
  | add {tree : FileTree} {names : List String} {node : FileNode} :
      tree.find? names = none → may names node →
      SourceFile.isSource (names.getLastD "") = false → Change may tree (tree.put names node)
  | makeDirectory {tree : FileTree} {names : List String} :
      tree.find? names = none → Change may tree (tree.put names .directory)

/-- Any number of steps. -/
def Changes (may : List String → FileNode → Prop) : FileTree → FileTree → Prop :=
  Relation.ReflTransGen (Change may)

variable {may : List String → FileNode → Prop}

theorem named_of_find? (tree : FileTree) {names : List String}
    (found : tree.find? names ≠ some .directory) : names ≠ [] := by
  rintro rfl
  exact found rfl

theorem Change.home (change : Change may before after) : after.home = before.home := by
  cases change <;> rfl

/-- What is at a place stays, unless it is replaced as allowed; a directory is never replaced. -/
theorem Change.stays (change : Change may before after) (found : before.find? names = some node) :
    ∃ node', after.find? names = some node' ∧ node'.isDirectory = node.isDirectory ∧
      (node' = node ∨ may names node') := by
  cases change with
  | @replace written old new there file newFile allowed =>
      have named : written ≠ [] := named_of_find? before fun same => by
        rw [there] at same
        cases same
        cases file
      rw [find?_put named]
      split
      · next same =>
        subst same
        rw [there] at found
        cases found
        exact ⟨new, rfl, newFile.trans file.symm, .inr allowed⟩
      · exact ⟨node, found, rfl, .inl rfl⟩
  | @add written new missing allowed _ =>
      have named : written ≠ [] := named_of_find? before fun same => by
        rw [missing] at same
        cases same
      rw [find?_put named]
      split
      · next same =>
        subst same
        rw [missing] at found
        cases found
      · exact ⟨node, found, rfl, .inl rfl⟩
  | @makeDirectory written missing =>
      have named : written ≠ [] := named_of_find? before fun same => by
        rw [missing] at same
        cases same
      rw [find?_put named]
      split
      · next same =>
        subst same
        rw [missing] at found
        cases found
      · exact ⟨node, found, rfl, .inl rfl⟩

theorem sources_replace {nodes : List (List String × FileNode)} {old : FileNode}
    (there : nodes.lookup names = some old) (file : old.isDirectory = false)
    (newFile : node.isDirectory = false) :
    ((putAt names node nodes).filter fun e =>
        !e.2.isDirectory && SourceFile.isSource (e.1.getLastD "")).map (·.1) =
      (nodes.filter fun e =>
        !e.2.isDirectory && SourceFile.isSource (e.1.getLastD "")).map (·.1) := by
  induction nodes with
  | nil => cases there
  | cons entry rest ih =>
      obtain ⟨first, known⟩ := entry
      unfold putAt
      rw [List.lookup_cons] at there
      by_cases same : first = names
      · subst same
        simp only [beq_self_eq_true] at there
        cases there
        simp only [beq_self_eq_true, if_true, List.filter_cons, file, newFile]
        split <;> rfl
      · have apart : (first == names) = false := beq_eq_false_iff_ne.2 same
        have apart' : (names == first) = false := beq_eq_false_iff_ne.2 fun h => same h.symm
        rw [apart'] at there
        have ih := ih there
        simp only [apart, Bool.false_eq_true, if_false, List.filter_cons] at ih ⊢
        split
        · rw [List.map_cons, List.map_cons, ih]
        · exact ih

theorem putAt_new {nodes : List (List String × FileNode)} (missing : nodes.lookup names = none)
    (node : FileNode) : putAt names node nodes = nodes ++ [(names, node)] := by
  induction nodes with
  | nil => rfl
  | cons entry rest ih =>
      obtain ⟨first, known⟩ := entry
      rw [List.lookup_cons] at missing
      by_cases same : names = first
      · subst same
        simp at missing
      · have apart : (names == first) = false := beq_eq_false_iff_ne.2 same
        have apart' : (first == names) = false := beq_eq_false_iff_ne.2 fun h => same h.symm
        rw [apart] at missing
        rw [putAt, apart', ih missing]
        rfl

theorem Change.sources (change : Change may before after) : after.sources = before.sources := by
  have lookup {names : List String} (named : names ≠ []) :
      before.find? names = before.nodes.lookup names := by
    have notEmpty : names.isEmpty = false := by simpa using named
    simp [find?, notEmpty]
  have added {names : List String} {node : FileNode} (missing : before.find? names = none)
      (other : (!node.isDirectory && SourceFile.isSource (names.getLastD "")) = false) :
      (before.put names node).sources = before.sources := by
    have named : names ≠ [] := named_of_find? before fun same => by
      rw [missing] at same
      cases same
    rw [lookup named] at missing
    unfold FileTree.sources put
    have none_ : [(names, node)].filter (fun e =>
        !e.2.isDirectory && SourceFile.isSource (e.1.getLastD "")) = [] := by
      rw [List.filter_singleton, other]
      rfl
    rw [putAt_new missing, List.filter_append, none_, List.append_nil]
  cases change with
  | @replace names old node there file newFile _ =>
      have named : names ≠ [] := named_of_find? before fun same => by
        rw [there] at same
        cases same
        cases file
      rw [lookup named] at there
      exact sources_replace there file newFile
  | add missing _ other => exact added missing (by rw [other, Bool.and_false])
  | makeDirectory missing => exact added missing rfl

namespace Changes

variable (changes : Changes may before after)

include changes

theorem home : after.home = before.home := by
  induction changes with
  | refl => rfl
  | tail _ step ih => exact step.home.trans ih

theorem sources : after.sources = before.sources := by
  induction changes with
  | refl => rfl
  | tail _ step ih => exact step.sources.trans ih

theorem stays (found : before.find? names = some node) :
    ∃ node', after.find? names = some node' ∧ node'.isDirectory = node.isDirectory ∧
      (node' = node ∨ may names node') := by
  induction changes with
  | refl => exact ⟨node, found, rfl, .inl rfl⟩
  | tail _ step ih =>
      obtain ⟨between, there, kind, contents⟩ := ih
      obtain ⟨last, there, kind', contents'⟩ := step.stays there
      refine ⟨last, there, kind'.trans kind, ?_⟩
      rcases contents' with rfl | allowed
      · exact contents
      · exact .inr allowed

theorem locate? (path : String) : after.locate? path = before.locate? path := by
  unfold FileTree.locate?
  rw [changes.home]

/-- What is at a path stays, unless it is replaced as allowed. -/
theorem node_stays (found : before.node path = .ok node) :
    ∃ node', after.node path = .ok node' ∧ node'.isDirectory = node.isDirectory ∧
      (node' = node ∨ ∃ names, before.locate? path = some names ∧ may names node') := by
  obtain ⟨names, located, there⟩ := locate?_of_node found
  obtain ⟨last, there', kind, contents⟩ := changes.stays there
  have located' := (changes.locate? path).trans located
  exact ⟨last, node_of_find? located' there', kind,
    contents.imp_right fun allowed => ⟨names, located, allowed⟩⟩

theorem holds (found : before.holds path = true) : after.holds path = true := by
  unfold FileTree.holds at found ⊢
  cases there : before.node path with
  | error e =>
      rw [there] at found
      cases found
  | ok node =>
      obtain ⟨node', there', _⟩ := changes.node_stays there
      rw [there']
      rfl

/-- A search finds the same sources. -/
theorem under {root : String} {found : List String}
    (ended : SourceFile.under before root = .ok found) :
    SourceFile.under after root = .ok found := by
  cases there : before.node root with
  | error e =>
      rw [SourceFile.under, there] at ended
      cases ended
  | ok node =>
      obtain ⟨node', there', kind, _⟩ := changes.node_stays there
      cases directory : node.isDirectory with
      | true =>
          have isDirectory {n : FileNode} (is : n.isDirectory = true) : n = .directory := by
            cases n with
            | directory => rfl
            | text | database => cases is
          rw [isDirectory directory] at there
          rw [isDirectory (kind.trans directory)] at there'
          obtain ⟨start, located, _⟩ := locate?_of_node there
          rw [under_directory located there] at ended
          rw [under_directory ((changes.locate? root).trans located) there', changes.sources, ended]
      | false =>
          rw [under_file there directory] at ended
          rw [under_file there' (kind.trans directory), ended]

/-- A whole search finds the same sources. -/
theorem discover {roots found : List String}
    (ended : SourceFile.discover roots before = .ok found) :
    SourceFile.discover roots after = .ok found := by
  unfold SourceFile.discover at ended ⊢
  cases searched : roots.mapM fun root =>
      (SourceFile.under before root).mapError (SourceFile.scanError root) with
  | error e =>
      rw [searched] at ended
      cases ended
  | ok all =>
      have same : (roots.mapM fun root =>
          (SourceFile.under after root).mapError (SourceFile.scanError root)) = .ok all := by
        rw [mapM_eq_ok_iff] at searched ⊢
        refine searched.imp fun root paths one => ?_
        rw [mapError_eq_ok] at one ⊢
        exact changes.under one
      rw [searched] at ended
      rw [same]
      exact ended

end Changes

/-- Writing to a path is one step. A source may be written only if it is there. -/
theorem writeNode_changes {next : FileTree} (written : tree.writeNode path node = .ok next)
    (file : node.isDirectory = false)
    (allowed : ∀ names, tree.locate? path = some names → may names node)
    (there : ∀ names, tree.locate? path = some names →
      SourceFile.isSource (names.getLastD "") = true → tree.find? names ≠ none) :
    Changes may tree next ∧ next.node path = .ok node := by
  unfold writeNode at written
  cases located : tree.locate? path with
  | none =>
      rw [located] at written
      cases written
  | some names =>
      have allowed := allowed names located
      have there := there names located
      simp only [located] at written
      have put (named : names ≠ []) : (tree.put names node).node path = .ok node := by
        refine node_of_find? located ?_
        rw [find?_put named, if_pos rfl]
      split at written
      · cases written
      · next old other found =>
        cases written
        have oldFile : old.isDirectory = false := by
          cases old with
          | directory => exact (other rfl).elim
          | text | database => rfl
        have named : names ≠ [] := named_of_find? tree fun same => by
          rw [found] at same
          exact other (Option.some.inj same)
        exact ⟨.single (.replace found oldFile file allowed), put named⟩
      · next missing parent =>
        cases written
        have notSource : SourceFile.isSource (names.getLastD "") = false :=
          Bool.eq_false_iff.2 fun source => there source missing
        have named : names ≠ [] := named_of_find? tree fun same => by
          rw [missing] at same
          cases same
        exact ⟨.single (.add missing allowed notSource), put named⟩
      · cases written

theorem makeDirectory_changes {last names : List String} {next : FileTree}
    (made : makeDirectory last tree names = .ok next) : Changes may tree next := by
  unfold makeDirectory at made
  split at made
  · next missing =>
    cases made
    exact .single (.makeDirectory missing)
  · cases made
    exact .refl
  · cases made

theorem makeDirectories_changes {next : FileTree} (made : tree.makeDirectories path = .ok next) :
    Changes may tree next := by
  have all (last : List String) (places : List (List String)) {start : FileTree}
      (made : places.foldlM (makeDirectory last) start = .ok next) : Changes may start next := by
    induction places generalizing start with
    | nil =>
        cases made
        exact .refl
    | cons names places ih =>
        rw [List.foldlM_cons] at made
        cases one : makeDirectory last start names with
        | error e =>
            rw [one] at made
            cases made
        | ok between =>
            rw [one] at made
            exact (makeDirectory_changes one).trans (ih made)
  unfold makeDirectories at made
  split at made
  · split at made
    · cases made
      exact .refl
    · cases made
  · exact all _ _ made

/-- Writes a file and makes the directories that it is in. -/
def writeDeep (tree : FileTree) (path text : String) : Except FileError FileTree := do
  (← tree.makeDirectories (Path.parent path)).write path text

theorem writeDeep_eq_ok {text : String} {next : FileTree} :
    tree.writeDeep path text = .ok next ↔
      ∃ between, tree.makeDirectories (Path.parent path) = .ok between ∧
        between.write path text = .ok next := by
  unfold writeDeep
  cases tree.makeDirectories (Path.parent path) with
  | error e => simp [bind, Except.bind]
  | ok between => simp [bind, Except.bind]

theorem read_eq_ok {text : String} :
    tree.read path = .ok text ↔ tree.node path = .ok (.text text) := by
  unfold read
  cases tree.node path with
  | error e => simp [bind, Except.bind]
  | ok node =>
      cases node with
      | directory | database => simp [bind, Except.bind, throw, throwThe, MonadExceptOf.throw]
      | text contents => simp [bind, Except.bind, pure, Except.pure]

theorem node_congr {path' : String} (same : tree.locate? path = tree.locate? path') :
    tree.node path = tree.node path' := by
  unfold FileTree.node
  rw [same]

/-- What a path leads to is no source. -/
def NoSource (tree : FileTree) (path : String) : Prop :=
  ∀ names, tree.locate? path = some names → SourceFile.isSource (names.getLastD "") = false

theorem noSource_of_endsWith {c : Char} (ends : Path.EndsWith path c) (other : c ≠ 'p')
    (tree : FileTree) : tree.NoSource path :=
  fun _ located => locate?_other ends other located

theorem NoSource.writeNode_changes {next : FileTree} (noSource : tree.NoSource path)
    (written : tree.writeNode path node = .ok next) (file : node.isDirectory = false)
    (allowed : ∀ names, tree.locate? path = some names → may names node) :
    Changes may tree next ∧ next.node path = .ok node :=
  FileTree.writeNode_changes written file allowed fun names located source => by
    rw [noSource names located] at source
    cases source

theorem NoSource.writeDeep_changes {text : String} {next : FileTree} (noSource : tree.NoSource path)
    (written : tree.writeDeep path text = .ok next)
    (allowed : ∀ names, tree.locate? path = some names → may names (.text text)) :
    Changes may tree next ∧ next.node path = .ok (.text text) := by
  obtain ⟨between, made, written⟩ := writeDeep_eq_ok.1 written
  have first : Changes may tree between := makeDirectories_changes made
  have located : between.locate? path = tree.locate? path := first.locate? path
  have noSource' : between.NoSource path := fun names found => noSource names (located ▸ found)
  have second : Changes may between next ∧ next.node path = .ok (.text text) :=
    noSource'.writeNode_changes written rfl fun names found => allowed names (located ▸ found)
  exact second.imp_left first.trans

end FileTree

end SqlUnits
