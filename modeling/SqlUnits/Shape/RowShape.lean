import SqlUnits.Shape.Column
import SqlUnits.Shape.Location
/-!
The shape of the rows that populate one row type, merged from every place where it was observed.
Types widen, what one place leaves open another fills in, and a failed merge changes nothing.
-/

namespace SqlUnits

/-- Why two places disagree on a row type; `first` is the place seen first. -/
inductive ShapeMergeError where
  | mixedMode (row : String)
  | columnCount (row : String) (expected actual : Nat) (first : String)
  | columnType (row column : String) (existing incoming : ValueType) (first : String)
deriving DecidableEq

def ShapeMergeError.message : ShapeMergeError → String
  | mixedMode row =>
      "row type " ++ row ++ " is populated both as a data row and as a metadata row"
  | columnCount row expected actual first =>
      "row type " ++ row ++ " has " ++ toString expected ++ " columns at " ++ first ++
        ", but the query here returns " ++ toString actual
  | columnType row column existing incoming first =>
      "column " ++ column ++ " of row type " ++ row ++ " is " ++ existing.name ++ " at " ++
        first ++ ", but " ++ incoming.name ++ " here"

structure RowShape where
  rowType : String
  isMeta : Bool
  columns : List ColumnInfo
  sites : List Location
deriving DecidableEq

namespace RowShape

def firstSite (shape : RowShape) : String :=
  match shape.sites with
  | site :: _ => site.display
  | [] => "<unknown>"

/-- The type that covers two observations; a missing one says nothing. -/
def mergeType (a b : Option ValueType) : Except (ValueType × ValueType) (Option ValueType) :=
  match a, b with
  | some x, some y =>
      match ValueType.wider? x y with
      | some t => .ok (some t)
      | none => .error (x, y)
  | some x, none => .ok (some x)
  | none, b => .ok b

def mergeColumn (existing incoming : ColumnInfo) :
    Except (ValueType × ValueType) ColumnInfo := do
  let type ← mergeType existing.valueType incoming.valueType
  pure { existing with
    valueType := type
    nullable := existing.nullable.merge incoming.nullable
    displaySize := max existing.displaySize incoming.displaySize
    precision := max existing.precision incoming.precision
    scale := max existing.scale incoming.scale }

/-- Merges columns pairwise; the error names the first column without a common type. -/
def mergeColumns : List ColumnInfo → List ColumnInfo →
    Except (String × ValueType × ValueType) (List ColumnInfo)
  | a :: as, b :: bs =>
      match mergeColumn a b with
      | .error (x, y) => .error (a.name, x, y)
      | .ok c => (c :: ·) <$> mergeColumns as bs
  | _, _ => .ok []

def merge (shape : RowShape) (isMeta : Bool) (columns : List ColumnInfo) (site : Location) :
    Except ShapeMergeError RowShape :=
  if shape.isMeta != isMeta then .error (.mixedMode shape.rowType)
  else if shape.columns.length ≠ columns.length then
    .error (.columnCount shape.rowType shape.columns.length columns.length shape.firstSite)
  else
    match mergeColumns shape.columns columns with
    | .error (name, x, y) => .error (.columnType shape.rowType name x y shape.firstSite)
    | .ok merged => .ok { shape with columns := merged, sites := shape.sites ++ [site] }

def toJson (shape : RowShape) : Json :=
  .obj [
    ("row_type", .str shape.rowType),
    ("meta", .bool shape.isMeta),
    ("columns", .arr (shape.columns.map ColumnInfo.toJson)),
    ("sites", .arr (shape.sites.map Location.toJson))]

end RowShape

/-! The shapes of all row types of a run, by qualified row name. -/

/-- Shapes in order of row name, one for each name. -/
structure ShapeRegistry where
  shapes : List RowShape := []
deriving DecidableEq

namespace ShapeRegistry

def get? (registry : ShapeRegistry) (row : String) : Option RowShape :=
  registry.shapes.find? (·.rowType == row)

def contains (registry : ShapeRegistry) (row : String) : Bool :=
  (registry.get? row).isSome

def size (registry : ShapeRegistry) : Nat :=
  registry.shapes.length

/-- Puts a shape in the place of the one with its name, or among the others in name order. -/
def insertShape (shape : RowShape) : List RowShape → List RowShape
  | [] => [shape]
  | s :: rest =>
      if s.rowType == shape.rowType then shape :: rest
      else if shape.rowType < s.rowType then shape :: s :: rest
      else s :: insertShape shape rest

/-- Records an observation, and returns the shape that results. -/
def record (registry : ShapeRegistry) (row : String) (isMeta : Bool) (columns : List ColumnInfo)
    (site : Location) : Except ShapeMergeError (RowShape × ShapeRegistry) := do
  let shape ← match registry.get? row with
    | some shape => shape.merge isMeta columns site
    | none => pure ⟨row, isMeta, columns, [site]⟩
  pure (shape, ⟨insertShape shape registry.shapes⟩)

end ShapeRegistry

end SqlUnits
