import Mathlib.Data.List.Forall2
import SqlUnits.Artifact.TypedUnit
import SqlUnits.Proofs.Artifact.Fields
/-!
Units whose open types are filled in, and the edits that fill them in. A unit on its lines is a
unit up to the bytes at which its parts stand.

A unit that is filled in already shares with the one that was filled in all but its types and
fields.
-/

namespace SqlUnits

/-- Types for the parameters and values of a unit that have none, and shapes for bare rows. -/
structure Filling where
  param : ParamDecl → ValueType
  value : Span → ValueType
  row : RowDecl → Option RowShape
  param_builtin : ∀ p, param p ∈ ValueType.builtins
  value_builtin : ∀ span, value span ∈ ValueType.builtins
  row_isWritten : ∀ r shape, row r = some shape → shape.IsWritten

namespace Filling

def fields (f : Filling) (r : RowDecl) : Option (List TypedField) :=
  (f.row r).bind discoveredFields

theorem fields_isWritten (f : Filling) (r : RowDecl) (list : List TypedField)
    (discovered : f.fields r = some list) :
    list ≠ [] ∧ ∀ field ∈ list, field.IsWritten := by
  obtain ⟨shape, chosen, fields⟩ := Option.bind_eq_some_iff.1 discovered
  obtain ⟨_, same, written⟩ := (f.row_isWritten r shape chosen).discoveredFields
  rw [fields] at same
  cases same
  exact written

end Filling

namespace ParamDecl

def fill (f : Filling) (p : ParamDecl) : ParamDecl :=
  { p with type := some (p.type.getD (f.param p)) }

/-- The type of a parameter is written behind its name. -/
def edit? (f : Filling) (p : ParamDecl) : Option Edit :=
  if p.type.isSome then none
  else some (.insertion p.insertionPoint (": " ++ (f.param p).name))

end ParamDecl

namespace Target

def fill (f : Filling) : Target → Target
  | .value .none span => .value (some (f.value span)) span
  | target => target

/-- The type of a value takes the place of its mark. -/
def edit? (f : Filling) : Target → Option Edit
  | .value .none span => some ⟨span, (f.value span).name⟩
  | _ => .none

end Target

def StatementDecl.fill (f : Filling) (s : StatementDecl) : StatementDecl :=
  { s with target := s.target.fill f }

namespace MethodDecl

def fill (f : Filling) (m : MethodDecl) : MethodDecl :=
  { m with params := m.params.map (·.fill f), statements := m.statements.map (·.fill f) }

/-- The edits of a method, in the order in which it is checked. -/
def edits (f : Filling) (m : MethodDecl) : List Edit :=
  m.statements.filterMap (·.target.edit? f) ++ m.params.filterMap (·.edit? f)

end MethodDecl

namespace RowDecl

/-- The discovered fields stand on the line of the name of the row. -/
def fill (f : Filling) (lines : LineIndex) (r : RowDecl) : RowDecl :=
  match r.fields with
  | some _ => r
  | none =>
      { r with
        fields := (f.fields r).map (·.map fun field =>
          ⟨field.name, field.type, lines.line r.name.span.start⟩) }

@[simp] theorem fill_name (f : Filling) (lines : LineIndex) (r : RowDecl) :
    (r.fill f lines).name = r.name := by
  unfold fill
  split <;> rfl

@[simp] theorem fill_line (f : Filling) (lines : LineIndex) (r : RowDecl) :
    (r.fill f lines).line = r.line := by
  unfold fill
  split <;> rfl

def edit? (f : Filling) (r : RowDecl) : Option Edit :=
  match r.fields with
  | some _ => none
  | none => (f.fields r).map fun fields => .insertion r.insertionPoint (renderFields fields)

end RowDecl

/-! On lines, spans and offsets are replaced by the lines at which they begin. -/

def Ident.onLines (lines : LineIndex) (w : Ident) : Ident :=
  ⟨w.name, .point (lines.line w.span.start)⟩

theorem Ident.onLines_eq {lines lines' : LineIndex} {w w' : Ident}
    (same : w'.onLines lines' = w.onLines lines) :
    w'.name = w.name ∧ lines'.line w'.span.start = lines.line w.span.start :=
  ⟨(congrArg Ident.name same :), (congrArg (·.span.start) same :)⟩

def RowDecl.onLines (lines : LineIndex) (r : RowDecl) : RowDecl :=
  { r with name := r.name.onLines lines }

def ParamDecl.onLines (lines : LineIndex) (p : ParamDecl) : ParamDecl :=
  { p with name := p.name.onLines lines }

def Target.onLines (lines : LineIndex) : Target → Target
  | .none => .none
  | .row name => .row (name.onLines lines)
  | .value type span => .value type (.point (lines.line span.start))

def SqlText.onLines (lines : LineIndex) (s : SqlText) : SqlText :=
  ⟨s.text, lines.line s.offset⟩

def StatementDecl.onLines (lines : LineIndex) (s : StatementDecl) : StatementDecl :=
  { s with
    target := s.target.onLines lines
    args := s.args.map (·.map (·.onLines lines))
    sql := s.sql.map (·.onLines lines)
    object := s.object.map (·.onLines lines) }

def MethodDecl.onLines (lines : LineIndex) (m : MethodDecl) : MethodDecl :=
  { m with
    name := m.name.onLines lines
    params := m.params.map (·.onLines lines)
    statements := m.statements.map (·.onLines lines) }

namespace SourceUnit

def lines (unit : SourceUnit) : LineIndex :=
  .ofText unit.source.toList

/-- A unit without its text, its parts on their lines. -/
def onLines (unit : SourceUnit) : SourceUnit :=
  { unit with
    source := ""
    name := unit.name.onLines unit.lines
    rows := unit.rows.map (·.onLines unit.lines)
    methods := unit.methods.map (·.onLines unit.lines) }

def fill (f : Filling) (unit : SourceUnit) : SourceUnit :=
  { unit with
    rows := unit.rows.map (·.fill f unit.lines)
    methods := unit.methods.map (·.fill f) }

end SourceUnit

end SqlUnits

/-! Units that are filled in already: what they share with the unit that was filled in, and which
types and fields they have besides. -/

namespace SqlUnits

variable {f : Filling} {lines lines' : LineIndex}

/-- A parameter with its type. -/
structure ParamDecl.Filled (f : Filling) (p p' : ParamDecl) : Prop where
  name : p'.name.name = p.name.name
  line : p'.line = p.line
  type : p'.type = some (p.type.getD (f.param p))
  sample : p'.sample = p.sample

/-- A target with its type. -/
inductive Target.Filled (f : Filling) : Target → Target → Prop
  | none : Filled f .none .none
  | row {w w' : Ident} : w'.name = w.name → Filled f (.row w) (.row w')
  | value {type : Option ValueType} {span span' : Span} :
      Filled f (.value type span) (.value (some (type.getD (f.value span))) span')

/-- A statement whose target has its type. -/
structure StatementDecl.Filled (f : Filling) (s s' : StatementDecl) : Prop where
  convention : s'.convention = s.convention
  line : s'.line = s.line
  target : s.target.Filled f s'.target
  args : s'.args.map (·.map (·.name)) = s.args.map (·.map (·.name))
  sql : s'.sql.map (·.text) = s.sql.map (·.text)
  object : s'.object.map (·.name) = s.object.map (·.name)

/-- A method with its types. -/
structure MethodDecl.Filled (f : Filling) (m m' : MethodDecl) : Prop where
  name : m'.name.name = m.name.name
  line : m'.line = m.line
  params : List.Forall₂ (ParamDecl.Filled f) m.params m'.params
  statements : List.Forall₂ (StatementDecl.Filled f) m.statements m'.statements

/-- A row with its fields, which stand on one line if they were discovered. -/
structure RowDecl.Filled (f : Filling) (r r' : RowDecl) : Prop where
  name : r'.name.name = r.name.name
  line : r'.line = r.line
  fields : ∃ line, r'.fields =
    r.fields.or ((f.fields r).map (·.map fun field => ⟨field.name, field.type, line⟩))

/-- A unit with its types and fields. -/
structure SourceUnit.Filled (f : Filling) (unit unit' : SourceUnit) : Prop where
  path : unit'.path = unit.path
  name : unit'.name.name = unit.name.name
  rows : List.Forall₂ (RowDecl.Filled f) unit.rows unit'.rows
  methods : List.Forall₂ (MethodDecl.Filled f) unit.methods unit'.methods

/-- Lists that agree under two maps are related element by element. -/
theorem forall₂_of_map_eq {α β γ : Type} {g : α → γ} {h : β → γ} {related : α → β → Prop}
    (each : ∀ a b, h b = g a → related a b) {as : List α} {bs : List β}
    (same : bs.map h = as.map g) : List.Forall₂ related as bs := by
  have pairs : List.Forall₂ (fun a b => h b = g a) as bs := by
    rw [← List.forall₂_map_left_iff (R := fun x b => h b = x), ← same,
      List.forall₂_map_left_iff]
    exact List.forall₂_same.2 fun _ _ => rfl
  exact pairs.imp each

theorem map_eq_of_forall₂ {α β γ : Type} {g : α → γ} {h : β → γ} {related : α → β → Prop}
    (each : ∀ a b, related a b → h b = g a) {as : List α} {bs : List β}
    (pairs : List.Forall₂ related as bs) : bs.map h = as.map g := by
  induction pairs with
  | nil => rfl
  | cons one _ ih => rw [List.map_cons, List.map_cons, each _ _ one, ih]

theorem any_eq_of_forall₂ {α β : Type} {p : α → Bool} {q : β → Bool} {related : α → β → Prop}
    (each : ∀ a b, related a b → q b = p a) {as : List α} {bs : List β}
    (pairs : List.Forall₂ related as bs) : bs.any q = as.any p := by
  induction pairs with
  | nil => rfl
  | cons one _ ih => rw [List.any_cons, List.any_cons, each _ _ one, ih]

theorem find?_of_forall₂ {α β : Type} {p : α → Bool} {q : β → Bool} {related : α → β → Prop}
    (each : ∀ a b, related a b → q b = p a) {as : List α} {bs : List β}
    (pairs : List.Forall₂ related as bs) :
    (as.find? p = none ∧ bs.find? q = none) ∨
      ∃ a b, as.find? p = some a ∧ bs.find? q = some b ∧ related a b := by
  induction pairs with
  | nil => exact .inl ⟨rfl, rfl⟩
  | @cons a b _ _ one _ ih =>
      rw [List.find?_cons, List.find?_cons, each a b one]
      cases p a with
      | true => exact .inr ⟨a, b, rfl, rfl, one⟩
      | false => exact ih

theorem filter_map_eq_of_forall₂ {α β γ : Type} {p : α → Bool} {q : β → Bool} {g : α → γ}
    {h : β → γ} {related : α → β → Prop} (kept : ∀ a b, related a b → q b = p a)
    (each : ∀ a b, related a b → h b = g a) {as : List α} {bs : List β}
    (pairs : List.Forall₂ related as bs) : (bs.filter q).map h = (as.filter p).map g := by
  induction pairs with
  | nil => rfl
  | @cons a b _ _ one _ ih =>
      rw [List.filter_cons, List.filter_cons, kept a b one]
      split
      · rw [List.map_cons, List.map_cons, each a b one, ih]
      · exact ih

theorem filterMap_eq_of_forall₂ {α β γ : Type} {g : α → Option γ} {h : β → Option γ}
    {related : α → β → Prop} {as : List α} {bs : List β} (pairs : List.Forall₂ related as bs)
    (each : ∀ a ∈ as, ∀ b, related a b → h b = g a) : bs.filterMap h = as.filterMap g := by
  induction pairs with
  | nil => rfl
  | @cons a b as bs one _ ih =>
      rw [List.filterMap_cons, List.filterMap_cons, each a (.head as) b one,
        ih fun a' member => each a' (.tail a member)]

theorem ParamDecl.filled_of_onLines (p p' : ParamDecl)
    (same : p'.onLines lines' = (p.fill f).onLines lines) : p.Filled f p' where
  name := (congrArg (·.name.name) same :)
  line := (congrArg ParamDecl.line same :)
  type := (congrArg ParamDecl.type same :)
  sample := (congrArg ParamDecl.sample same :)

theorem Target.filled_of_onLines {t t' : Target}
    (same : t'.onLines lines' = (t.fill f).onLines lines) : t.Filled f t' := by
  cases t with
  | none =>
      cases t' with
      | none => exact .none
      | row | value => cases same
  | row w =>
      cases t' with
      | row w' =>
          have words : w'.onLines lines' = w.onLines lines := Target.row.inj same
          exact .row (Ident.onLines_eq words).1
      | none | value => cases same
  | value type span =>
      have known : (Target.value type span).fill f =
          .value (some (type.getD (f.value span))) span := by
        cases type <;> rfl
      rw [known] at same
      cases t' with
      | value type' span' =>
          obtain ⟨types, _⟩ := Target.value.inj same
          rw [types]
          exact .value
      | none | row => cases same

theorem StatementDecl.filled_of_onLines (s s' : StatementDecl)
    (same : s'.onLines lines' = (s.fill f).onLines lines) : s.Filled f s' where
  convention := (congrArg StatementDecl.convention same :)
  line := (congrArg StatementDecl.line same :)
  target := Target.filled_of_onLines (congrArg StatementDecl.target same :)
  args := by
    have args := congrArg (fun s => s.args.map (·.map (·.name))) same
    simpa [onLines, fill, Function.comp_def, Ident.onLines] using args
  sql := by
    have sql := congrArg (fun s => s.sql.map (·.text)) same
    simpa [onLines, fill, Function.comp_def, SqlText.onLines] using sql
  object := by
    have object := congrArg (fun s => s.object.map (·.name)) same
    simpa [onLines, fill, Function.comp_def, Ident.onLines] using object

theorem MethodDecl.filled_of_onLines (m m' : MethodDecl)
    (same : m'.onLines lines' = (m.fill f).onLines lines) : m.Filled f m' where
  name := (congrArg (·.name.name) same :)
  line := (congrArg MethodDecl.line same :)
  params := by
    have params : m'.params.map (·.onLines lines') =
        (m.params.map (·.fill f)).map (·.onLines lines) := congrArg MethodDecl.params same
    rw [List.map_map] at params
    exact forall₂_of_map_eq ParamDecl.filled_of_onLines params
  statements := by
    have statements : m'.statements.map (·.onLines lines') =
        (m.statements.map (·.fill f)).map (·.onLines lines) := congrArg MethodDecl.statements same
    rw [List.map_map] at statements
    exact forall₂_of_map_eq StatementDecl.filled_of_onLines statements

theorem RowDecl.filled_of_onLines (r r' : RowDecl)
    (same : r'.onLines lines' = (r.fill f lines).onLines lines) : r.Filled f r' where
  name := by
    have name : r'.name.name = (r.fill f lines).name.name := (congrArg (·.name.name) same :)
    rw [name, fill_name]
  line := by
    have line : r'.line = (r.fill f lines).line := (congrArg RowDecl.line same :)
    rw [line, fill_line]
  fields := by
    refine ⟨lines.line r.name.span.start, ?_⟩
    have fields : r'.fields = (r.fill f lines).fields := (congrArg RowDecl.fields same :)
    rw [fields]
    unfold fill
    cases declared : r.fields with
    | none => rfl
    | some list => exact declared

/-- What is read as a unit that is filled in is that unit with its types and fields. -/
theorem SourceUnit.filled_of_onLines {unit unit' : SourceUnit}
    (same : unit'.onLines = (unit.fill f).onLines) : unit.Filled f unit' where
  path := (congrArg SourceUnit.path same :)
  name := (congrArg (·.name.name) same :)
  rows := by
    have rows : unit'.rows.map (·.onLines unit'.lines) =
        (unit.rows.map (·.fill f unit.lines)).map (·.onLines unit.lines) :=
      congrArg SourceUnit.rows same
    rw [List.map_map] at rows
    exact forall₂_of_map_eq RowDecl.filled_of_onLines rows
  methods := by
    have methods : unit'.methods.map (·.onLines unit'.lines) =
        (unit.methods.map (·.fill f)).map (·.onLines unit.lines) :=
      congrArg SourceUnit.methods same
    rw [List.map_map] at methods
    exact forall₂_of_map_eq MethodDecl.filled_of_onLines methods

end SqlUnits
