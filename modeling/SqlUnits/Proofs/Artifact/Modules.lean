import Mathlib.Data.List.Nodup
import Mathlib.Data.List.Perm.Basic
import SqlUnits.Artifact.Code
import SqlUnits.Config.Basic
import SqlUnits.Proofs.Artifact.Fields
import SqlUnits.Proofs.Check.Binding
import SqlUnits.Project.Run
/-!
Generated files and the module lists among them. No file is written over another, and every module
is declared once, exactly if the names of modules are distinct, also from those of the row namespace
and of the lists.
-/

namespace SqlUnits.Code

/-! What a module list declares. -/

/-- The module that a line declares. -/
def moduleName? (line : Text) : Option String :=
  if "pub mod ".toList.isPrefixOf line && line.getLast? == some ';' then
    some (String.ofList (line.drop 8).dropLast)
  else none

def declaredModules (contents : String) : List String :=
  (contents.toList.splitOn '\n').filterMap moduleName?

theorem moduleName?_declaration (name : String) :
    moduleName? ("pub mod ".toList ++ (name.toList ++ [';'])) = some name := by
  have starts : "pub mod ".toList.isPrefixOf ("pub mod ".toList ++ (name.toList ++ [';'])) = true :=
    List.isPrefixOf_iff_prefix.2 (List.prefix_append _ _)
  have ends : ("pub mod ".toList ++ (name.toList ++ [';'])).getLast? = some ';' := by
    rw [← List.append_assoc, List.getLast?_concat]
  have inside : ("pub mod ".toList ++ (name.toList ++ [';'])).drop 8 = name.toList ++ [';'] :=
    List.drop_left' rfl
  simp only [moduleName?, starts, ends, inside, List.dropLast_concat, String.ofList_toList,
    beq_self_eq_true, Bool.and_self, if_true]

theorem splitOn_line {line : Text} (one : '\n' ∉ line) (rest : Text) :
    (line ++ '\n' :: rest).splitOn '\n' = line :: rest.splitOn '\n' := by
  have other : ∀ c ∈ line, (c == '\n') = false := by
    intro c member
    rw [beq_eq_false_iff_ne]
    rintro rfl
    exact one member
  exact List.splitOnP_append_cons_of_forall_mem other '\n' (beq_self_eq_true _) rest

theorem declared_lines {names : List String} (lines : ∀ name ∈ names, '\n' ∉ name.toList) :
    ((names.flatMap fun name => ("pub mod " ++ name ++ ";\n").toList).splitOn '\n').filterMap
      moduleName? = names := by
  induction names with
  | nil => rfl
  | cons name names ih =>
      obtain ⟨first, others⟩ := List.forall_mem_cons.1 lines
      have line : '\n' ∉ "pub mod ".toList ++ (name.toList ++ [';']) := by
        simp [first]
      have shape : ((name :: names).flatMap fun name => ("pub mod " ++ name ++ ";\n").toList) =
          ("pub mod ".toList ++ (name.toList ++ [';'])) ++ '\n' ::
            names.flatMap fun name => ("pub mod " ++ name ++ ";\n").toList := by
        simp [List.flatMap_cons]
      rw [shape, splitOn_line line,
        List.filterMap_cons_some (moduleName?_declaration name), ih others]

/-- A module list declares the modules that it was made for. -/
theorem declaredModules_moduleList {names : List String}
    (lines : ∀ name ∈ names, '\n' ∉ name.toList) : declaredModules (moduleList names) = names := by
  have comment : '\n' ∉ "// Generated by sqlprobe. Do not edit.".toList := by decide
  have shape : (moduleList names).toList =
      "// Generated by sqlprobe. Do not edit.".toList ++ '\n' :: ([] ++ '\n' ::
        names.flatMap fun name => ("pub mod " ++ name ++ ";\n").toList) := by
    simp [moduleList, header, String.toList_join, List.flatMap_map]
  unfold declaredModules
  rw [shape, splitOn_line comment, splitOn_line List.not_mem_nil]
  exact declared_lines lines

/-! Paths of generated files. -/

/-- The file of a module in a folder. -/
def modulePath (folder module : String) : String :=
  folder ++ (module ++ ".rs")

def moduleNames (units : List TypedUnit) : List String :=
  units.map fun u => snakeCase u.unit

theorem modulePath_inj {folder m n : String} :
    modulePath folder m = modulePath folder n ↔ m = n := by
  simp [modulePath, ← String.toList_inj]

theorem snakeFrom_isIdent {cs : Text} (all : ∀ c ∈ cs, Text.isIdentChar c = true) (small : Bool) :
    ∀ c ∈ snakeFrom small cs, Text.isIdentChar c = true := by
  induction cs generalizing small with
  | nil => nofun
  | cons c cs ih =>
      obtain ⟨first, others⟩ := List.forall_mem_cons.1 all
      unfold snakeFrom
      split
      · rename_i upper
        have letter : (Text.isLetter c || Text.isDigit c) = true := by simp [Text.isLetter, upper]
        have more : ∀ x ∈ Text.lower c :: snakeFrom false cs, Text.isIdentChar x = true :=
          List.forall_mem_cons.2 ⟨isIdentChar_lower letter, ih others false⟩
        dsimp only
        split
        · exact List.forall_mem_cons.2 ⟨by decide, more⟩
        · exact more
      · exact List.forall_mem_cons.2 ⟨first, ih others _⟩

theorem snakeCase_isIdent {name : String} (all : ∀ c ∈ name.toList, Text.isIdentChar c = true) :
    ∀ c ∈ (snakeCase name).toList, Text.isIdentChar c = true := by
  rw [snakeCase, String.toList_ofList]
  exact snakeFrom_isIdent all false

/-- Made of the characters of identifiers. -/
def IsPlain (name : String) : Prop :=
  ∀ c ∈ name.toList, Text.isIdentChar c = true

instance (name : String) : Decidable (IsPlain name) :=
  decidable_of_iff (name.toList.all Text.isIdentChar = true) List.all_eq_true

theorem IsPlain.not_mem {name : String} (plain : IsPlain name) {c : Char}
    (other : Text.isIdentChar c = false) : c ∉ name.toList := by
  intro member
  rw [plain c member] at other
  cases other

theorem join_eq {base path : String} (plain : IsPlain base) (named : base ≠ "")
    (relative : Path.isAbsolute path = false) : Path.join base path = base ++ "/" ++ path := by
  have noSlash : (base.toList.getLast? == some '/') = false := by
    rw [beq_eq_false_iff_ne]
    intro ends
    exact plain.not_mem (by decide) (List.mem_of_getLast? ends)
  have notEmpty : base.isEmpty = false := by
    simpa [String.isEmpty_iff] using named
  simp [Path.join, relative, notEmpty, noSlash]

theorem isAbsolute_module {name : String} (plain : IsPlain name) :
    Path.isAbsolute (name ++ ".rs") = false := by
  unfold Path.isAbsolute
  rw [beq_eq_false_iff_ne, String.toList_append]
  cases chars : name.toList with
  | nil => decide
  | cons c rest =>
      rw [List.cons_append, List.head?_cons, ne_eq, Option.some.injEq]
      rintro rfl
      exact plain.not_mem (by decide) (chars ▸ List.mem_cons_self)

/-- How often a module of a folder is there, as a file or as a folder with files. -/
def places (files : List GeneratedFile) (folder module : String) : Nat :=
  (files.map (·.path)).count (modulePath folder module) +
    if files.any fun f => Text.startsWith f.path.toList (folder ++ (module ++ "/")).toList then 1
    else 0

/-- The list of a folder declares each of its modules once, and what it declares is there once. -/
structure Lists (files : List GeneratedFile) (folder : String) (modules : List String) : Prop where
  written : ∃ file ∈ files, file.path = modulePath folder "mod"
  once : ∀ file ∈ files, file.path = modulePath folder "mod" →
    (∀ module ∈ modules, (declaredModules file.contents).count module = 1) ∧
      ∀ module ∈ declaredModules file.contents, places files folder module = 1

/-- No file is written over another, and the module lists fit the files. -/
structure Tidy (units : List TypedUnit) (rowNamespace : String) (files : List GeneratedFile) :
    Prop where
  paths : (files.map (·.path)).Nodup
  top : Lists files "" (rowNamespace :: moduleNames units)
  rows : Lists files (rowNamespace ++ "/") (moduleNames units)

section

variable {units : List TypedUnit} {rowNamespace : String} {files : List GeneratedFile}

/-- The list of a folder, written once for distinct modules that are there once. -/
theorem lists_of_written {folder : String} {modules declared : List String}
    (paths : (files.map (·.path)).Nodup)
    (written : ⟨modulePath folder "mod", moduleList declared⟩ ∈ files)
    (distinct : declared.Nodup) (lines : ∀ m ∈ declared, '\n' ∉ m.toList)
    (covers : ∀ m ∈ modules, m ∈ declared) (there : ∀ m ∈ declared, places files folder m = 1) :
    Lists files folder modules := by
  refine ⟨⟨_, written, rfl⟩, fun file member path => ?_⟩
  obtain rfl := List.inj_on_of_nodup_map paths member written path
  rw [declaredModules_moduleList lines]
  exact ⟨fun m among => List.count_eq_one_of_mem distinct (covers m among), there⟩

theorem unitFiles_paths {unit : TypedUnit} (made : unitFiles rowNamespace unit = .ok files) :
    files.map (·.path) = [snakeCase unit.unit ++ ".rs",
      Path.join rowNamespace (snakeCase unit.unit ++ ".rs")] := by
  unfold unitFiles at made
  cases access : accessModule unit rowNamespace with
  | error e =>
      rw [access] at made
      cases made
  | ok text =>
      rw [access] at made
      cases made
      rfl

/-- The files of the units, and the two lists. -/
theorem generate_parts (made : generate units rowNamespace = .ok files) :
    ∃ perUnit sorted : List _, units.mapM (unitFiles rowNamespace) = .ok perUnit ∧
      sorted.Perm (moduleNames units) ∧
      files = perUnit.flatten ++ [⟨"mod.rs", moduleList (rowNamespace :: sorted)⟩,
        ⟨Path.join rowNamespace "mod.rs", moduleList sorted⟩] := by
  unfold generate at made
  cases mapped : units.mapM (unitFiles rowNamespace) with
  | error e =>
      rw [mapped] at made
      cases made
  | ok perUnit =>
      rw [mapped] at made
      cases made
      exact ⟨perUnit, _, rfl, List.mergeSort_perm _ _, rfl⟩

theorem flatten_paths {perUnit : List (List GeneratedFile)}
    (made : List.Forall₂ (fun u fs => unitFiles rowNamespace u = .ok fs) units perUnit) :
    perUnit.flatten.map (·.path) = units.flatMap fun u =>
      [snakeCase u.unit ++ ".rs", Path.join rowNamespace (snakeCase u.unit ++ ".rs")] := by
  induction made with
  | nil => rfl
  | cons one _ ih => rw [List.flatten_cons, List.map_append, unitFiles_paths one, ih,
      List.flatMap_cons]

variable (plain : IsPlain rowNamespace) (named : rowNamespace ≠ "")
  (names : ∀ u ∈ units, IsPlain u.unit)

include plain named in
theorem join_module {name : String} (isPlain : IsPlain name) :
    Path.join rowNamespace (name ++ ".rs") = modulePath (rowNamespace ++ "/") name := by
  rw [join_eq plain named (isAbsolute_module isPlain), modulePath]

include plain named names in
/-- The paths of generated files: those of the modules and of the list, in both folders. -/
theorem generate_paths (made : generate units rowNamespace = .ok files) :
    (files.map (·.path)).Perm (("mod" :: moduleNames units).map (modulePath "") ++
      ("mod" :: moduleNames units).map (modulePath (rowNamespace ++ "/"))) := by
  obtain ⟨perUnit, sorted, mapped, _, rfl⟩ := generate_parts made
  let top := modulePath ""
  let rows := modulePath (rowNamespace ++ "/")
  have own : units.flatMap (fun u =>
      [snakeCase u.unit ++ ".rs", Path.join rowNamespace (snakeCase u.unit ++ ".rs")]) =
      (moduleNames units).flatMap fun m => top m :: [rows m] := by
    rw [moduleNames, List.flatMap_map]
    apply List.flatMap_congr
    intro u member
    rw [join_module plain named (snakeCase_isIdent (names u member))]
    simp [top, rows, modulePath]
  have lists : ["mod.rs", Path.join rowNamespace "mod.rs"] = [top "mod", rows "mod"] := by
    have list : Path.join rowNamespace "mod.rs" = rows "mod" :=
      join_module plain named (show IsPlain "mod" by decide)
    rw [list]
    rfl
  have whole (first second : String) : (perUnit.flatten ++ [(⟨"mod.rs", first⟩ : GeneratedFile),
      ⟨Path.join rowNamespace "mod.rs", second⟩]).map (·.path) =
      ((moduleNames units).flatMap fun m => top m :: [rows m]) ++ [top "mod", rows "mod"] := by
    rw [List.map_append, flatten_paths (mapM_eq_ok_iff.1 mapped), own, ← lists]
    rfl
  rw [whole]
  have split := List.map_append_flatMap_perm ("mod" :: moduleNames units) top fun m => [rows m]
  rw [← List.map_eq_flatMap] at split
  exact List.perm_append_comm.trans split.symm

/-! What stands in the folders. -/

theorem top_not_mem {m : String} (isPlain : IsPlain m) : '/' ∉ (modulePath "" m).toList := by
  have noSlash := isPlain.not_mem (c := '/') (by decide)
  simp [modulePath, noSlash]

theorem rows_toList (m : String) : (modulePath (rowNamespace ++ "/") m).toList =
    (rowNamespace.toList ++ ['/']) ++ (m ++ ".rs").toList := by
  simp [modulePath]

theorem top_ne_rows {m n : String} (isPlain : IsPlain m) :
    modulePath "" m ≠ modulePath (rowNamespace ++ "/") n := by
  intro same
  apply top_not_mem isPlain
  rw [same, rows_toList]
  simp

/-- What stands before the first slash. -/
theorem eq_of_leading {m n rest : Text} (left : '/' ∉ m) (right : '/' ∉ n)
    (starts : m ++ ['/'] <+: (n ++ ['/']) ++ rest) : m = n := by
  obtain ⟨more, same⟩ := starts
  have first (m rest : Text) (noSlash : '/' ∉ m) : (m ++ '/' :: rest).takeWhile (· != '/') = m := by
    apply Text.takeWhile_run
    · intro c member
      rw [bne_iff_ne]
      rintro rfl
      exact noSlash member
    · rfl
  rw [List.append_assoc, List.singleton_append, List.append_assoc, List.singleton_append] at same
  rw [← first m more left, same, first n rest right]

variable (made : generate units rowNamespace = .ok files)

include names in
theorem isPlain_of_mem {m : String} (member : m ∈ "mod" :: moduleNames units) : IsPlain m := by
  rcases List.mem_cons.1 member with rfl | member
  · decide
  · obtain ⟨u, inside, rfl⟩ := List.mem_map.1 member
    exact snakeCase_isIdent (names u inside)

include plain named names made

theorem mem_paths {path : String} : path ∈ files.map (·.path) ↔
    ∃ m ∈ "mod" :: moduleNames units,
      path = modulePath "" m ∨ path = modulePath (rowNamespace ++ "/") m := by
  rw [(generate_paths plain named names made).mem_iff, List.mem_append, List.mem_map, List.mem_map]
  constructor
  · rintro (⟨m, member, rfl⟩ | ⟨m, member, rfl⟩)
    · exact ⟨m, member, .inl rfl⟩
    · exact ⟨m, member, .inr rfl⟩
  · rintro ⟨m, member, rfl | rfl⟩
    · exact .inl ⟨m, member, rfl⟩
    · exact .inr ⟨m, member, rfl⟩

theorem paths_nodup : (files.map (·.path)).Nodup ↔ ("mod" :: moduleNames units).Nodup := by
  rw [(generate_paths plain named names made).nodup_iff, List.nodup_append,
    List.nodup_map_iff fun _ _ => modulePath_inj.1, List.nodup_map_iff fun _ _ => modulePath_inj.1]
  refine ⟨fun both => both.1, fun distinct => ⟨distinct, distinct, ?_⟩⟩
  intro path top path' rows
  obtain ⟨m, member, rfl⟩ := List.mem_map.1 top
  obtain ⟨n, _, rfl⟩ := List.mem_map.1 rows
  exact top_ne_rows (isPlain_of_mem names member)

theorem mem_top {m : String} (isPlain : IsPlain m) :
    modulePath "" m ∈ files.map (·.path) ↔ m ∈ "mod" :: moduleNames units := by
  rw [mem_paths plain named names made]
  constructor
  · rintro ⟨n, member, same | same⟩
    · exact modulePath_inj.1 same ▸ member
    · exact absurd same (top_ne_rows isPlain)
  · exact fun member => ⟨m, member, .inl rfl⟩

theorem mem_rows {m : String} : modulePath (rowNamespace ++ "/") m ∈ files.map (·.path) ↔
    m ∈ "mod" :: moduleNames units := by
  rw [mem_paths plain named names made]
  constructor
  · rintro ⟨n, member, same | same⟩
    · exact absurd same.symm (top_ne_rows (isPlain_of_mem names member))
    · exact modulePath_inj.1 same ▸ member
  · exact fun member => ⟨m, member, .inr rfl⟩

/-- The row namespace is the only folder. -/
theorem folder_top {m : String} (isPlain : IsPlain m) :
    (files.any fun f => Text.startsWith f.path.toList ("" ++ (m ++ "/")).toList) = true ↔
      m = rowNamespace := by
  have noSlash := isPlain.not_mem (c := '/') (by decide)
  have within := plain.not_mem (c := '/') (by decide)
  have folder : ("" ++ (m ++ "/")).toList = m.toList ++ ['/'] := by simp
  simp only [List.any_eq_true, Text.startsWith, List.isPrefixOf_iff_prefix, folder]
  constructor
  · rintro ⟨file, member, starts⟩
    have path := List.mem_map_of_mem (f := GeneratedFile.path) member
    obtain ⟨n, inside, same | same⟩ := (mem_paths plain named names made).1 path
    · rw [same] at starts
      exact absurd (starts.subset (by simp)) (top_not_mem (isPlain_of_mem names inside))
    · rw [same, rows_toList] at starts
      exact String.toList_inj.1 (eq_of_leading noSlash within starts)
  · rintro rfl
    obtain ⟨file, member, path⟩ :=
      List.mem_map.1 ((mem_rows plain named names made).2 (.head (moduleNames units)))
    refine ⟨file, member, ?_⟩
    rw [path, rows_toList]
    exact List.prefix_append _ _

/-- There is no folder in that of the row namespace. -/
theorem folder_rows {m : String} (isPlain : IsPlain m) : (files.any fun f =>
    Text.startsWith f.path.toList (rowNamespace ++ "/" ++ (m ++ "/")).toList) = false := by
  have noSlash := isPlain.not_mem (c := '/') (by decide)
  have folder : (rowNamespace ++ "/" ++ (m ++ "/")).toList =
      (rowNamespace.toList ++ ['/']) ++ (m.toList ++ ['/']) := by simp
  rw [List.any_eq_false]
  intro file member starts
  rw [Text.startsWith, List.isPrefixOf_iff_prefix, folder] at starts
  have path := List.mem_map_of_mem (f := GeneratedFile.path) member
  obtain ⟨n, inside, same | same⟩ := (mem_paths plain named names made).1 path
  · rw [same] at starts
    exact top_not_mem (isPlain_of_mem names inside) (starts.subset (by simp))
  · rw [same, rows_toList, List.prefix_append_right_inj] at starts
    have inside := (isPlain_of_mem names inside).not_mem (c := '/') (by decide)
    have slash : '/' ∈ (n ++ ".rs").toList := starts.subset (by simp)
    simp [inside] at slash

theorem places_top (distinct : (files.map (·.path)).Nodup) {m : String} (isPlain : IsPlain m) :
    places files "" m = (if m ∈ "mod" :: moduleNames units then 1 else 0) +
      if m = rowNamespace then 1 else 0 := by
  unfold places
  rw [distinct.count]
  simp only [folder_top plain named names made isPlain, mem_top plain named names made isPlain]

theorem places_rows (distinct : (files.map (·.path)).Nodup) {m : String} (isPlain : IsPlain m) :
    places files (rowNamespace ++ "/") m =
      if m ∈ "mod" :: moduleNames units then 1 else 0 := by
  unfold places
  rw [distinct.count, folder_rows plain named names made isPlain]
  simp only [mem_rows plain named names made, Bool.false_eq_true, if_false, Nat.add_zero]

theorem tidy_distinct (tidy : Tidy units rowNamespace files) :
    (rowNamespace :: "mod" :: moduleNames units).Nodup := by
  refine List.nodup_cons.2 ⟨fun member => ?_, (paths_nodup plain named names made).1 tidy.paths⟩
  obtain ⟨file, written, path⟩ := tidy.top.written
  obtain ⟨once, there⟩ := tidy.top.once file written path
  have declared : rowNamespace ∈ declaredModules file.contents := by
    apply List.count_pos_iff.1
    rw [once rowNamespace List.mem_cons_self]
    exact Nat.one_pos
  have one := there rowNamespace declared
  rw [places_top plain named names made tidy.paths plain, if_pos member, if_pos rfl] at one
  exact absurd one (by decide)

theorem distinct_tidy (distinct : (rowNamespace :: "mod" :: moduleNames units).Nodup) :
    Tidy units rowNamespace files := by
  obtain ⟨own, others⟩ := List.nodup_cons.1 distinct
  have paths := (paths_nodup plain named names made).2 others
  have top {m : String} := places_top plain named names made paths (m := m)
  have rows {m : String} := places_rows plain named names made paths (m := m)
  obtain ⟨perUnit, sorted, _, perm, rfl⟩ := generate_parts made
  have known {m : String} (member : m ∈ sorted) : m ∈ "mod" :: moduleNames units :=
    .tail _ (perm.mem_iff.1 member)
  have isPlain {m : String} (member : m ∈ sorted) : IsPlain m := isPlain_of_mem names (known member)
  have line {m : String} (isPlain : IsPlain m) : '\n' ∉ m.toList := isPlain.not_mem (by decide)
  have sortedOnce : sorted.Nodup := perm.nodup_iff.2 (List.nodup_cons.1 others).2
  have apart : rowNamespace ∉ sorted := fun member => own (known member)
  have allOnce : (rowNamespace :: sorted).Nodup := List.nodup_cons.2 ⟨apart, sortedOnce⟩
  refine ⟨paths, ?_, ?_⟩
  · refine lists_of_written paths ?_ allOnce ?_ ?_ ?_
    · exact List.mem_append_right _ List.mem_cons_self
    · exact List.forall_mem_cons.2 ⟨line plain, fun m member => line (isPlain member)⟩
    · exact List.forall_mem_cons.2
        ⟨List.mem_cons_self, fun m member => .tail _ (perm.mem_iff.2 member)⟩
    · refine List.forall_mem_cons.2 ⟨?_, fun m member => ?_⟩
      · rw [top plain, if_neg own, if_pos rfl]
      · have other : m ≠ rowNamespace := fun same => apart (same ▸ member)
        rw [top (isPlain member), if_pos (known member), if_neg other]
  · refine lists_of_written paths ?_ sortedOnce ?_ ?_ ?_
    · rw [← join_module plain named (show IsPlain "mod" by decide)]
      exact List.mem_append_right _ (.tail _ List.mem_cons_self)
    · exact fun m member => line (isPlain member)
    · exact fun m member => perm.mem_iff.2 member
    · intro m member
      rw [rows (isPlain member), if_pos (known member)]

end

/-- The files of a run are tidy exactly if all names of modules are distinct: those of the units in
snake case, the row namespace, and that of the lists themselves. -/
theorem generate_tidy_iff {units : List TypedUnit} {rowNamespace : String}
    {files : List GeneratedFile} (names : ∀ u ∈ units, Scanner.IsName u.unit.toList)
    (valid : Config.isNamespace rowNamespace = true)
    (made : generate units rowNamespace = .ok files) :
    Tidy units rowNamespace files ↔ (rowNamespace :: "mod" :: moduleNames units).Nodup := by
  simp only [Config.isNamespace, Bool.and_eq_true, Bool.not_eq_true', List.all_eq_true] at valid
  obtain ⟨⟨nonempty, _⟩, plain⟩ := valid
  have named : rowNamespace ≠ "" := by
    rintro rfl
    cases nonempty
  have plains : ∀ u ∈ units, IsPlain u.unit := fun u member => (names u member).all
  exact ⟨tidy_distinct plain named plains made, distinct_tidy plain named plains made⟩

theorem generate_tidy_users :
    let units : List TypedUnit := [⟨"UserDao", "a.sqlp", [], []⟩, ⟨"Orders2Dao", "b.sqlp", [], []⟩]
    (∀ u ∈ units, Scanner.IsName u.unit.toList) ∧ Config.isNamespace "rows" = true ∧
      ∃ files, generate units "rows" = .ok files ∧ Tidy units "rows" files := by
  intro units
  have names : ∀ u ∈ units, Scanner.IsName u.unit.toList := by decide
  have valid : Config.isNamespace "rows" = true := by decide
  exact ⟨names, valid, _, rfl, (generate_tidy_iff names valid rfl).2 (by decide)⟩

/-- Two units of one run are written to one file. -/
theorem generate_overwrites :
    let p : Preprocessor := ⟨{}, .apart (.ok {}), .ofDialect .sqlite, .builtins⟩
    let units : List TypedUnit := [⟨"UserDao", "a.sqlp", [], []⟩, ⟨"userDao", "b.sqlp", [], []⟩]
    (p.run [⟨"a.sqlp", "unit UserDao\n"⟩, ⟨"b.sqlp", "unit userDao\n"⟩]).units.filterMap (·.typed) =
        units ∧
      (units.map (·.unit)).Nodup ∧ Config.isNamespace p.config.rowNamespace = true ∧
      ∃ files, generate units p.config.rowNamespace = .ok files ∧ ¬(files.map (·.path)).Nodup := by
  exact ⟨by decide +kernel, by decide, by decide, _, rfl, by decide⟩

/-- A unit may also have the name of the row namespace, or that of a module list. -/
example : ¬("rows" :: "mod" :: moduleNames [⟨"Rows", "a.sqlp", [], []⟩]).Nodup ∧
    ¬("rows" :: "mod" :: moduleNames [⟨"Mod", "a.sqlp", [], []⟩]).Nodup := by
  decide

end SqlUnits.Code
