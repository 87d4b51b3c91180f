import SqlUnits.Proofs.Artifact.FreshNames
import SqlUnits.Proofs.Artifact.Modules
import SqlUnits.Proofs.Check.Generating
import SqlUnits.Proofs.Project.Persistence
/-!
The identifiers of the fields of row types, in the code that a run writes for them. Those of
discovered fields are distinct, those of declared ones are if they are declared once. Each of them
is an identifier, but for the keywords that are not marked raw.
-/

namespace SqlUnits

open Scanner

namespace Code

/-- Words with a meaning of their own in the code, and those that are kept free for one. -/
def keywords : List String :=
  ["as", "async", "await", "break", "const", "continue", "crate", "dyn", "else", "enum", "extern",
    "false", "fn", "for", "if", "impl", "in", "let", "loop", "match", "mod", "move", "mut", "pub",
    "ref", "return", "self", "Self", "static", "struct", "super", "trait", "true", "type", "unsafe",
    "use", "where", "while", "abstract", "become", "box", "do", "final", "macro", "override",
    "priv", "try", "typeof", "unsized", "virtual", "yield"]

/-- Words that cannot be marked raw. -/
def rawless : List String :=
  ["crate", "self", "Self", "super", "_"]

/-- A name that is no keyword, or one that is marked raw. -/
inductive IsIdentifier : String → Prop
  | plain {name : String} (isName : IsName name.toList) (free : name ∉ "_" :: keywords) :
      IsIdentifier name
  | raw {name : String} (isName : IsName name.toList) (free : name ∉ rawless) :
      IsIdentifier ("r#" ++ name)

/-- The keywords that are written as they are. -/
def unmarked : List String :=
  ["_", "crate", "self", "Self", "super", "abstract", "become", "do", "final", "macro", "override",
    "try", "typeof", "unsized", "virtual"]

theorem mem_unmarked {name : String} :
    name ∈ unmarked ↔ name ∈ "_" :: keywords ∧ name ∉ reserved := by
  have words : (∀ w ∈ unmarked, w ∈ "_" :: keywords ∧ w ∉ reserved) ∧
      ∀ w ∈ "_" :: keywords, w ∉ reserved → w ∈ unmarked := by decide
  exact ⟨words.1 name, fun ⟨keyword, free⟩ => words.2 name keyword free⟩

theorem not_raw {name word : String} (isName : IsName name.toList) : name ≠ "r#" ++ word := by
  rintro rfl
  have mark : '#' ∈ ("r#" ++ word).toList := by simp
  exact absurd (isName.all '#' mark) (by decide)

/-- Only the keywords that are not marked come out as no identifiers. -/
theorem isIdentifier_identifier {name : String} (isName : IsName name.toList) :
    IsIdentifier (identifier name) ↔ name ∉ unmarked := by
  unfold identifier
  rw [mem_unmarked, not_and, not_not]
  by_cases marked : name ∈ reserved
  · rw [if_pos (List.contains_iff_mem.2 marked)]
    have words : ∀ w ∈ reserved, w ∉ rawless := by decide
    exact ⟨fun _ _ => marked, fun _ => .raw isName (words name marked)⟩
  · rw [if_neg (mt List.contains_iff_mem.1 marked)]
    constructor
    · intro legal keyword
      generalize same : name = written at legal
      cases legal with
      | plain _ free => exact absurd (same ▸ keyword) free
      | raw _ _ => exact absurd same (not_raw isName)
    · exact fun all => .plain isName fun keyword => marked (all keyword)

theorem identifier_inj {name other : String} (isName : IsName name.toList)
    (isName' : IsName other.toList) : identifier name = identifier other ↔ name = other := by
  refine ⟨fun same => ?_, congrArg identifier⟩
  unfold identifier at same
  split at same <;> split at same
  · simpa [← String.toList_inj] using same
  · exact absurd same.symm (not_raw isName')
  · exact absurd same (not_raw isName)
  · exact same

theorem nodup_identifiers {fields : List TypedField} (names : ∀ f ∈ fields, IsName f.name.toList) :
    (fields.map fun f => identifier f.name).Nodup ↔ (fields.map (·.name)).Nodup := by
  have whole : fields.map (fun f => identifier f.name) = (fields.map (·.name)).map identifier := by
    rw [List.map_map]
    rfl
  rw [whole]
  refine ⟨List.Nodup.of_map _, fun distinct => distinct.map_on fun a member b member' same => ?_⟩
  obtain ⟨f, inside, rfl⟩ := List.mem_map.1 member
  obtain ⟨f', inside', rfl⟩ := List.mem_map.1 member'
  exact (identifier_inj (names f inside) (names f' inside')).1 same

/-! Reading the struct of a row type. -/

def fieldIdentifier? (line : Text) : Option String :=
  if "    pub ".toList.isPrefixOf line then
    some (String.ofList ((line.drop 8).takeWhile (· ≠ ':')))
  else none

/-- The identifiers of the fields that a struct declares. -/
def declaredFields (code : String) : List String :=
  (code.toList.splitOn '\n').filterMap fieldIdentifier?

theorem fieldIdentifier?_line {name type : Text} (noColon : ':' ∉ name) :
    fieldIdentifier? ("    pub ".toList ++ (name ++ ':' :: type)) = some (String.ofList name) := by
  have starts : "    pub ".toList.isPrefixOf ("    pub ".toList ++ (name ++ ':' :: type)) = true :=
    List.isPrefixOf_iff_prefix.2 (List.prefix_append _ _)
  have behind : ("    pub ".toList ++ (name ++ ':' :: type)).drop 8 = name ++ ':' :: type :=
    List.drop_left' rfl
  have run : (name ++ ':' :: type).takeWhile (· ≠ ':') = name := by
    refine Text.takeWhile_run (fun c member => ?_) (by simp)
    simp only [ne_eq, decide_eq_true_eq]
    rintro rfl
    exact noColon member
  unfold fieldIdentifier?
  rw [if_pos starts, behind, run]

/-- The line of a field, of its identifier and its type. -/
def fieldLine (f : String × String) : String :=
  "    pub " ++ f.1 ++ ": " ++ f.2 ++ ",\n"

theorem fieldLines {fields : List (String × String)} (rest : Text)
    (plain : ∀ f ∈ fields, ':' ∉ f.1.toList ∧ '\n' ∉ f.1.toList ∧ '\n' ∉ f.2.toList) :
    (((fields.flatMap fun f => (fieldLine f).toList) ++ rest).splitOn '\n').filterMap
      fieldIdentifier? =
        fields.map (·.1) ++ (rest.splitOn '\n').filterMap fieldIdentifier? := by
  induction fields with
  | nil => rfl
  | cons f fields ih =>
      obtain ⟨⟨noColon, line, type⟩, others⟩ := List.forall_mem_cons.1 plain
      have shape : (fieldLine f).toList =
          ("    pub ".toList ++ (f.1.toList ++ ':' :: ' ' :: (f.2.toList ++ [',']))) ++ ['\n'] := by
        simp [fieldLine]
      have oneLine :
          '\n' ∉ "    pub ".toList ++ (f.1.toList ++ ':' :: ' ' :: (f.2.toList ++ [','])) := by
        simp [line, type]
      rw [List.flatMap_cons, shape, List.append_assoc, List.append_assoc, List.singleton_append,
        splitOn_line oneLine, List.filterMap_cons, fieldIdentifier?_line noColon, ih others,
        String.ofList_toList]
      rfl

theorem not_mem_identifier {name : String} (isName : IsName name.toList) {c : Char}
    (other : Text.isIdentChar c = false) (noMark : c ≠ '#') : c ∉ (identifier name).toList := by
  have outside : c ∉ name.toList := IsPlain.not_mem isName.all other
  unfold identifier
  split
  · have noLetter : c ≠ 'r' := by
      rintro rfl
      cases other
    simp [noLetter, noMark, outside]
  · exact outside

theorem not_mem_rustType {type : ValueType} (isName : IsName type.name.toList) :
    '\n' ∉ (rustType type).toList := by
  cases type with
  | custom name =>
      have outside : '\n' ∉ name.toList := IsPlain.not_mem isName.all (by decide)
      simp [rustType, outside]
  | _ => decide

theorem not_mem_fieldRustType {type : FieldType} (isName : IsName type.name.toList)
    (nullable : Nullability) : '\n' ∉ (fieldRustType type nullable).toList := by
  cases type with
  | descriptor => cases nullable <;> decide
  | value type =>
      have inner := not_mem_rustType isName
      cases nullable <;> simp [fieldRustType, inner]

theorem declaredFields_structText {row : TypedRow} (name : IsName row.name.toList)
    (written : ∀ f ∈ row.fields, f.IsWritten) :
    declaredFields (structText row) = row.fields.map fun f => identifier f.name := by
  let parts (f : TypedField) := (identifier f.name, fieldRustType f.type f.nullable)
  have derive : "#[derive(Debug, Clone, PartialEq, Default)]\n".toList =
      "#[derive(Debug, Clone, PartialEq, Default)]".toList ++ ['\n'] := by simp
  have opening : " \x7b\n".toList = " \x7b".toList ++ ['\n'] := by simp
  have spread (a b c d : String) (ls : List String) :
      (a ++ b ++ row.name ++ c ++ String.join ls ++ d).toList =
        a.toList ++ (b.toList ++ (row.name.toList ++ (c.toList ++
          (ls.flatMap String.toList ++ d.toList)))) := by
    simp [String.toList_join, List.flatMap_def]
  have shape : (structText row).toList =
      "#[derive(Debug, Clone, PartialEq, Default)]".toList ++ '\n' ::
        (("pub struct ".toList ++ (row.name.toList ++ " \x7b".toList)) ++ '\n' ::
          (((row.fields.map parts).flatMap fun f => (fieldLine f).toList) ++
            "\x7d\n\n".toList)) := by
    refine (spread _ _ _ _ _).trans ?_
    rw [derive, opening, List.flatMap_map, List.flatMap_map]
    simp only [List.append_assoc, List.cons_append, List.nil_append, fieldLine, parts]
  have noBreak : '\n' ∉ row.name.toList := IsPlain.not_mem name.all (by decide)
  have plain : ∀ f ∈ row.fields.map parts,
      ':' ∉ f.1.toList ∧ '\n' ∉ f.1.toList ∧ '\n' ∉ f.2.toList := by
    intro line member
    obtain ⟨f, inside, rfl⟩ := List.mem_map.1 member
    obtain ⟨isName, type, -⟩ := written f inside
    exact ⟨not_mem_identifier isName (by decide) (by decide),
      not_mem_identifier isName (by decide) (by decide), not_mem_fieldRustType type _⟩
  unfold declaredFields
  rw [shape, splitOn_line (by decide), splitOn_line (by simp [noBreak]), List.filterMap_cons,
    List.filterMap_cons, fieldLines _ plain]
  have derives : fieldIdentifier? "#[derive(Debug, Clone, PartialEq, Default)]".toList = none := by
    decide
  have opens (cs : Text) : fieldIdentifier? ("pub struct ".toList ++ cs) = none := rfl
  have closes : ("\x7d\n\n".toList.splitOn '\n').filterMap fieldIdentifier? = [] := by decide
  rw [derives, opens, closes, List.append_nil, List.map_map]
  rfl

end Code

/-! The fields of a run. -/

namespace TypedRow

variable {decl : RowDecl} {shape : Option RowShape} {row : TypedRow}

theorem ofDecl?_isWritten (made : ofDecl? decl shape = some row)
    (declared : ∀ fields ∈ decl.fields, ∀ f ∈ fields, ∃ lines c d, FieldAt lines c f d)
    (known : ∀ shape' ∈ shape, ∀ column ∈ shape'.columns, ∀ t, column.valueType = some t →
      t ∈ ValueType.builtins) : ∀ f ∈ row.fields, f.IsWritten := by
  unfold ofDecl? at made
  split at made
  · next fields there =>
    cases made
    intro f member
    obtain ⟨⟨field, index⟩, inside, rfl⟩ := List.mem_map.1 member
    obtain ⟨_, _, _, w, v, _, _, name, _, type, rfl⟩ :=
      declared fields there field (List.fst_mem_of_mem_zipIdx inside)
    have written := FieldType.name_ofName v.name
    exact ⟨name.name, written.symm ▸ type.name, congrArg FieldType.ofName written⟩
  · next shape there =>
    obtain ⟨fields, discovered, rfl⟩ := Option.map_eq_some_iff.1 made
    intro f member
    obtain ⟨column, inside, describes⟩ := (forall₂_mem (fieldsFrom_describes discovered)).2 f member
    obtain ⟨type, same⟩ := describes.type_isWritten (.inr (known shape rfl column inside))
    exact ⟨fieldsFrom_isName discovered f member, type, same⟩
  · cases made

theorem ofDeclared_names (name : String) (fields : List FieldDecl) (shape : Option RowShape) :
    (ofDeclared name fields shape).fields.map (·.name) = fields.map (·.name) :=
  List.ext_getElem (by simp [ofDeclared]) fun i _ _ => by simp [ofDeclared]

/-- Only the names of a declaration can be the same. -/
theorem ofDecl?_distinct (made : ofDecl? decl shape = some row) :
    (row.fields.map (·.name)).Nodup ↔ ∀ fields ∈ decl.fields, (fields.map (·.name)).Nodup := by
  unfold ofDecl? at made
  split at made
  · next fields there =>
    cases made
    rw [ofDeclared_names, there]
    simp
  · next shape there =>
    obtain ⟨fields, discovered, rfl⟩ := Option.map_eq_some_iff.1 made
    rw [there]
    exact iff_of_true (fieldsFrom_fresh discovered).1 nofun
  · cases made

end TypedRow

namespace Code

theorem structText_infix {unit : TypedUnit} {row : TypedRow} (member : row ∈ unit.rows) :
    (structText row).toList <:+: (rowModule unit).toList := by
  obtain ⟨before, after, same⟩ := List.append_of_mem member
  let block (row : TypedRow) := "\n" ++ structText row ++ implText unit.unit row
  have inside (opening : String) :
      (structText row).toList <:+: (opening ++ String.join (unit.rows.map block)).toList := by
    rw [String.toList_append, String.toList_join, same, List.map_append, List.map_cons,
      List.flatMap_append, List.flatMap_cons]
    refine ⟨opening.toList ++ ((before.map block).flatMap String.toList ++ "\n".toList),
      (implText unit.unit row).toList ++ (after.map block).flatMap String.toList, ?_⟩
    simp only [block, String.toList_append, List.append_assoc]
  exact inside _

end Code

/-- The fields of each row type that a run writes code for. Their identifiers are distinct if they
were discovered, and if they were declared exactly if their names are. They are identifiers exactly
if no field is named with a keyword that is written as it is. -/
theorem Preprocessor.run_fields (p : Preprocessor) (files : List SourceFile)
    (stored : Option Database) :
    List.Forall₂ (fun file r => ∀ u ∈ r.typed, ∃ unit ∈ file.unit?, ∀ row ∈ u.rows,
      ∃ decl ∈ unit.rows, decl.name.name = row.name ∧
        (Code.structText row).toList <:+: (Code.rowModule u).toList ∧
        ((Code.declaredFields (Code.structText row)).Nodup ↔
          ∀ fields ∈ decl.fields, (fields.map (·.name)).Nodup) ∧
        ((∀ name ∈ Code.declaredFields (Code.structText row), Code.IsIdentifier name) ↔
          ∀ f ∈ row.fields, f.name ∉ Code.unmarked))
      files (p.run files stored).units := by
  refine (p.run_made files stored).imp fun file r made u typed => ?_
  obtain ⟨unit, validated, run, last, read, -, rfl⟩ := made u typed
  refine ⟨unit, SourceFile.mem_unit?.2 read, fun row member => ?_⟩
  obtain ⟨decl, declared, made⟩ := List.mem_filterMap.1 member
  have name := TypedRow.ofDecl?_name made
  obtain ⟨lines, keyword, c, d, at_⟩ := SourceUnit.scan_rowAt read decl declared
  have isName : IsName row.name.toList := by
    obtain ⟨⟨_, word, _⟩, _, _⟩ := at_
    exact name ▸ word.name
  have written := TypedRow.ofDecl?_isWritten made
    (fun fields there f inside => ⟨lines, at_.field fields there f inside⟩)
    fun shape found => p.attempts_builtin files stored _ shape found
  refine ⟨decl, declared, name.symm, Code.structText_infix member, ?_, ?_⟩
  · rw [Code.declaredFields_structText isName written, ← TypedRow.ofDecl?_distinct made]
    exact Code.nodup_identifiers fun f inside => (written f inside).name
  · rw [Code.declaredFields_structText isName written, List.forall_mem_map]
    exact forall₂_congr fun f member => Code.isIdentifier_identifier (written f member).name

/-- Columns of one name that is a keyword. -/
theorem Preprocessor.run_fields_type :
    let p : Preprocessor := ⟨{}, .apart (.ok {}), .ofDialect .sqlite, .builtins⟩
    let file : SourceFile :=
      ⟨"u.sqlp", "unit U\nrow R\n\nfn m() \x7b\n  many R \x7b SELECT 1 AS type, 2 AS type \x7d\n\x7d\n"⟩
    ∃ r u row, (p.run [file]).units = [r] ∧ r.typed = some u ∧ u.rows = [row] ∧
      Code.declaredFields (Code.structText row) = ["r#type", "type_2"] ∧
      (Code.declaredFields (Code.structText row)).Nodup ∧
      ∀ name ∈ Code.declaredFields (Code.structText row), Code.IsIdentifier name := by
  intro p file
  let row : TypedRow := ⟨"R", false, false, [⟨"type", .value .long, .unknown⟩,
    ⟨"type_2", .value .long, .unknown⟩]⟩
  have rows : (p.run [file]).units.map (fun r => r.typed.map (·.rows)) = [some [row]] := by
    decide +kernel
  have made := p.run_fields [file] none
  obtain ⟨r, single, typed⟩ := List.map_eq_singleton_iff.1 rows
  obtain ⟨u, artifact, only⟩ := Option.map_eq_some_iff.1 typed
  have there : row ∈ u.rows := by
    rw [only]
    exact .head _
  rw [single] at made
  obtain ⟨one, -⟩ := List.forall₂_cons.1 made
  obtain ⟨unit, _, all⟩ := one u artifact
  obtain ⟨decl, _, _, _, -, legal⟩ := all row there
  have fields : Code.declaredFields (Code.structText row) = ["r#type", "type_2"] := by decide +kernel
  exact ⟨r, u, row, single, artifact, only, fields, by rw [fields]; decide, legal.2 (by decide)⟩

/-- A column and declared fields whose identifiers are none, or are the same. -/
theorem Preprocessor.run_fields_final :
    let p : Preprocessor := ⟨{}, .apart (.ok {}), .ofDialect .sqlite, .builtins⟩
    let discovered : SourceFile :=
      ⟨"u.sqlp", "unit U\nrow R\n\nfn m() \x7b\n  many R \x7b SELECT 1 AS final \x7d\n\x7d\n"⟩
    let declared : SourceFile :=
      ⟨"u.sqlp", "unit U\nrow R(a: long, a: long)\n\nfn m() \x7b\n  many R \x7b SELECT 1, 2 \x7d\n\x7d\n"⟩
    let fields (file : SourceFile) := (p.run [file]).units.filterMap fun r =>
      r.typed.map fun u => u.rows.map fun row => Code.declaredFields (Code.structText row)
    fields discovered = [[["final"]]] ∧ ¬Code.IsIdentifier "final" ∧
      fields declared = [[["a", "a"]]] := by
  refine ⟨by decide +kernel, ?_, by decide +kernel⟩
  show ¬Code.IsIdentifier (Code.identifier "final")
  rw [Code.isIdentifier_identifier (by decide)]
  decide

end SqlUnits
