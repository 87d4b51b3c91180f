import SqlUnits.Proofs.Project.FileTree
/-!
The texts of files, place by place. A write changes the text at one place, and a directory that is
made changes none; so what is written elsewhere leaves a text as it is.
-/

namespace SqlUnits.FileTree

variable {tree other next before after : FileTree} {path text : String} {names : List String}
  {node : FileNode} {at_ : List String → Prop}

/-- The text of the file at a place. -/
def textAt? (tree : FileTree) (names : List String) : Option String :=
  (tree.find? names).bind (·.text?)

theorem textAt?_eq_some : tree.textAt? names = some text ↔ tree.find? names = some (.text text) := by
  unfold textAt?
  cases tree.find? names with
  | none => simp
  | some node => cases node <;> simp [FileNode.text?]

theorem read_iff_textAt? :
    tree.read path = .ok text ↔
      ∃ names, tree.locate? path = some names ∧ tree.textAt? names = some text := by
  simp only [read_eq_ok, textAt?_eq_some]
  exact ⟨locate?_of_node, fun ⟨names, located, found⟩ => node_of_find? located found⟩

theorem locate?_congr (home : other.home = tree.home) (path : String) :
    other.locate? path = tree.locate? path := by
  unfold locate?
  rw [home]

/-- Two trees hold the same texts at some places. -/
structure SameTexts (at_ : List String → Prop) (tree other : FileTree) : Prop where
  home : other.home = tree.home
  texts : ∀ names, at_ names → other.textAt? names = tree.textAt? names

namespace SameTexts

theorem refl (at_ : List String → Prop) (tree : FileTree) : SameTexts at_ tree tree :=
  ⟨rfl, fun _ _ => rfl⟩

theorem symm (same : SameTexts at_ tree other) : SameTexts at_ other tree :=
  ⟨same.home.symm, fun names inside => (same.texts names inside).symm⟩

theorem trans (first : SameTexts at_ tree other) (second : SameTexts at_ other next) :
    SameTexts at_ tree next :=
  ⟨second.home.trans first.home, fun names inside =>
    (second.texts names inside).trans (first.texts names inside)⟩

theorem locate? (same : SameTexts at_ tree other) (path : String) :
    other.locate? path = tree.locate? path :=
  locate?_congr same.home path

theorem read (same : SameTexts at_ tree other)
    (inside : ∀ names, tree.locate? path = some names → at_ names) :
    tree.read path = .ok text ↔ other.read path = .ok text := by
  rw [read_iff_textAt?, read_iff_textAt?, same.locate?]
  refine exists_congr fun names => and_congr_right fun located => ?_
  rw [same.texts names (inside names located)]

end SameTexts

/-! What is written. -/

theorem textAt?_put (named : names ≠ []) (tree : FileTree) (node : FileNode)
    (place : List String) :
    (tree.put names node).textAt? place =
      if place = names then node.text? else tree.textAt? place := by
  unfold textAt?
  rw [find?_put named]
  split <;> rfl

/-- The texts after one file was written. -/
theorem writeNode_texts (written : tree.writeNode path node = .ok next) :
    next.home = tree.home ∧ ∃ names, tree.locate? path = some names ∧
      ∀ place, next.textAt? place = if place = names then node.text? else tree.textAt? place := by
  unfold writeNode at written
  cases located : tree.locate? path with
  | none =>
      rw [located] at written
      cases written
  | some names =>
      have put (file : tree.find? names ≠ some .directory)
          (same : tree.put names node = next) : next.home = tree.home ∧
            ∃ names', some names = some names' ∧ ∀ place,
              next.textAt? place = if place = names' then node.text? else tree.textAt? place :=
        same ▸ ⟨rfl, names, rfl, textAt?_put (named_of_find? tree file) tree node⟩
      simp only [located] at written
      split at written
      · cases written
      · next old other found =>
        exact put (fun same => other (Option.some.inj (found.symm.trans same)))
          (Except.ok.inj written)
      · next missing _ =>
        exact put (fun same => nomatch missing.symm.trans same) (Except.ok.inj written)
      · cases written

/-- Directories are made where nothing is. -/
theorem makeDirectories_texts (made : tree.makeDirectories path = .ok next) :
    SameTexts (fun _ => True) tree next := by
  have changes : Changes (fun _ _ => False) tree next := makeDirectories_changes made
  clear made
  induction changes with
  | refl => exact .refl _ _
  | tail _ change same =>
      refine same.trans ?_
      cases change with
      | replace _ _ _ never => exact never.elim
      | add _ never _ => exact never.elim
      | @makeDirectory names missing =>
          have named : names ≠ [] := named_of_find? _ fun same => nomatch missing.symm.trans same
          refine ⟨rfl, fun place _ => ?_⟩
          rw [textAt?_put named]
          split
          · next same =>
            rw [same, textAt?, missing]
            rfl
          · rfl

/-- The texts after a file was written and the directories that it is in were made. -/
theorem writeDeep_texts (written : tree.writeDeep path text = .ok next) :
    next.home = tree.home ∧ ∃ names, tree.locate? path = some names ∧
      ∀ place, next.textAt? place = if place = names then some text else tree.textAt? place := by
  obtain ⟨between, made, written⟩ := writeDeep_eq_ok.1 written
  have same := makeDirectories_texts made
  obtain ⟨home, names, located, texts⟩ := writeNode_texts written
  refine ⟨home.trans same.home, names, (same.locate? path).symm.trans located, fun place => ?_⟩
  rw [texts, same.texts place trivial]
  rfl

theorem read_of_writeDeep (written : tree.writeDeep path text = .ok next) :
    next.read path = .ok text := by
  obtain ⟨home, names, located, texts⟩ := writeDeep_texts written
  exact read_iff_textAt?.2 ⟨names, (locate?_congr home path).trans located,
    (texts names).trans (if_pos rfl)⟩

theorem SameTexts.writeNode (written : tree.writeNode path node = .ok next)
    (apart : ∀ names, tree.locate? path = some names → ¬at_ names) : SameTexts at_ tree next := by
  obtain ⟨home, names, located, texts⟩ := writeNode_texts written
  refine ⟨home, fun place inside => (texts place).trans (if_neg ?_)⟩
  rintro rfl
  exact apart place located inside

theorem SameTexts.writeDeep (written : tree.writeDeep path text = .ok next)
    (apart : ∀ names, tree.locate? path = some names → ¬at_ names) : SameTexts at_ tree next := by
  obtain ⟨home, names, located, texts⟩ := writeDeep_texts written
  refine ⟨home, fun place inside => (texts place).trans (if_neg ?_)⟩
  rintro rfl
  exact apart place located inside

/-- What is written one thing after the other. -/
theorem SameTexts.writeAll {α : Type} {path text : α → String} {files : List α}
    (written : files.foldlM (fun tree file => tree.writeDeep (path file) (text file)) tree =
      .ok next)
    (apart : ∀ file ∈ files, ∀ names, tree.locate? (path file) = some names → ¬at_ names) :
    SameTexts at_ tree next := by
  induction files generalizing tree with
  | nil =>
      cases written
      exact .refl _ _
  | cons file files ih =>
      obtain ⟨apartOne, apart⟩ := List.forall_mem_cons.1 apart
      rw [List.foldlM_cons] at written
      cases one : tree.writeDeep (path file) (text file) with
      | error e =>
          rw [one] at written
          cases written
      | ok between =>
          rw [one] at written
          have first : SameTexts at_ tree between := .writeDeep one apartOne
          exact first.trans (ih written fun file member names located =>
            apart file member names (first.locate? _ ▸ located))

/-! What is written to two trees alike. -/

section

variable {next' : FileTree}

/-- Trees hold the same texts after one change that both have seen. -/
theorem SameTexts.both (same : SameTexts at_ tree other) {path : String} {text? : Option String}
    (written : next.home = tree.home ∧ ∃ names, tree.locate? path = some names ∧
      ∀ place, next.textAt? place = if place = names then text? else tree.textAt? place)
    (written' : next'.home = other.home ∧ ∃ names, other.locate? path = some names ∧
      ∀ place, next'.textAt? place = if place = names then text? else other.textAt? place) :
    SameTexts at_ next next' := by
  obtain ⟨home, names, located, texts⟩ := written
  obtain ⟨home', names', located', texts'⟩ := written'
  rw [same.locate?, located] at located'
  obtain rfl := Option.some.inj located'
  refine ⟨home'.trans (same.home.trans home.symm), fun place inside => ?_⟩
  rw [texts, texts', same.texts place inside]

theorem SameTexts.writeNode_both (same : SameTexts at_ tree other)
    (written : tree.writeNode path node = .ok next)
    (written' : other.writeNode path node = .ok next') : SameTexts at_ next next' :=
  same.both (writeNode_texts written) (writeNode_texts written')

theorem SameTexts.writeDeep_both (same : SameTexts at_ tree other)
    (written : tree.writeDeep path text = .ok next)
    (written' : other.writeDeep path text = .ok next') : SameTexts at_ next next' :=
  same.both (writeDeep_texts written) (writeDeep_texts written')

theorem SameTexts.writeAll_both {α : Type} {path text : α → String} {files : List α}
    (same : SameTexts at_ tree other)
    (written : files.foldlM (fun tree file => tree.writeDeep (path file) (text file)) tree =
      .ok next)
    (written' : files.foldlM (fun tree file => tree.writeDeep (path file) (text file)) other =
      .ok next') : SameTexts at_ next next' := by
  induction files generalizing tree other with
  | nil =>
      cases written
      cases written'
      exact same
  | cons file files ih =>
      rw [List.foldlM_cons] at written written'
      cases one : tree.writeDeep (path file) (text file) with
      | error e =>
          rw [one] at written
          cases written
      | ok between =>
          cases one' : other.writeDeep (path file) (text file) with
          | error e =>
              rw [one'] at written'
              cases written'
          | ok between' =>
              rw [one] at written
              rw [one'] at written'
              exact ih (same.writeDeep_both one one') written written'

end

/-- Two paths that lead to one file have the same last part. -/
theorem last_eq_of_locate? {start start' : List String} {path' last last' : String}
    (shape : Path.parts path = start ++ [last]) (shape' : Path.parts path' = start' ++ [last'])
    (named : last ≠ "..") (named' : last' ≠ "..") (located : tree.locate? path = some names)
    (located' : tree.locate? path' = some names) (some_ : names ≠ []) : last = last' := by
  obtain ⟨found, there⟩ := Option.ne_none_iff_exists'.1 (mt List.getLast?_eq_none_iff.1 some_)
  rw [← locate?_named shape named located found there,
    ← locate?_named shape' named' located' found there]

end SqlUnits.FileTree
