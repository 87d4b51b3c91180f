import SqlUnits.Access.Error
import SqlUnits.Report.Diagnostic
import SqlUnits.Query.Piece
import SqlUnits.Shape.RowShape
import SqlUnits.Value.Kind
/-!
Failed units: the error, and the stack of frames in which it arose, the innermost first. Frames of
the engine carry its marker; the frame around the outermost of them is the place in the source.
-/

namespace SqlUnits

structure Frame where
  owner : String
  file : String
  line : Nat
deriving DecidableEq

namespace Frame

/-- The owner of the frames that the engine adds. -/
def marker : String := "sqlprobe-engine"

def engine (probe : String) : Frame :=
  ⟨marker, probe, 0⟩

def location (frame : Frame) : Location :=
  Location.atLine frame.file frame.line

end Frame

/-- What follows the last element that satisfies `p`; `none` when no element does. -/
def afterLast? (p : α → Bool) : List α → Option (List α)
  | [] => none
  | a :: rest =>
      match afterLast? p rest with
      | some found => some found
      | none => if p a then some rest else none

/-- The place that called into the outermost frame of an owner. -/
def locate (stack : List Frame) (owner : String) : Option Location := do
  let outer ← afterLast? (·.owner == owner) stack
  outer.head?.map Frame.location

/-- An error that fails a unit. -/
inductive ValidationError where
  | syntaxError (message : String)
  | typeConflict (name : String) (first : ValueType) (firstSite : Location) (second : ValueType)
      (secondSite : Location)
  | shapeMismatch (message : String)
  | cardinality (message : String)
  | driver (message : String)
  | configuration (message : String)
deriving DecidableEq

namespace ValidationError

def message : ValidationError → String
  | syntaxError m => m
  | typeConflict name first firstSite second secondSite =>
      "Parameter " ++ name ++ " has conflicting type definitions: " ++ first.name ++ " at " ++
        firstSite.display ++ ", " ++ second.name ++ " at " ++ secondSite.display
  | shapeMismatch m => m
  | cardinality m => m
  | driver m => m
  | configuration m => m

def code : ValidationError → DiagnosticCode
  | syntaxError _ => .sqlSyntaxError
  | typeConflict .. => .paramTypeConflict
  | shapeMismatch _ => .rowShapeMismatch
  | cardinality _ => .resultCardinality
  | driver _ => .driverError
  | configuration _ => .rowConfiguration

def kind : ValidationError → String
  | syntaxError _ => "Syntax"
  | typeConflict .. => "TypeConflict"
  | shapeMismatch _ => "ShapeMismatch"
  | cardinality _ => "Cardinality"
  | driver _ => "Driver"
  | configuration _ => "Configuration"

def ofDriver (e : DriverError) : ValidationError :=
  driver e.message

def ofAccess : AccessError → ValidationError
  | .database e => driver e.message
  | .mapping e => configuration e.message
  | .configuration e => configuration e.message
  | .cardinality e => cardinality e.message

def ofShape (e : ShapeMergeError) : ValidationError :=
  shapeMismatch e.message

def ofQuery (e : Query.QueryError) : ValidationError :=
  syntaxError e.message

end ValidationError

structure UnitFailure where
  error : ValidationError
  stack : List Frame
deriving DecidableEq

namespace UnitFailure

def location (f : UnitFailure) : Option Location :=
  locate f.stack Frame.marker

def display (f : UnitFailure) : String :=
  match f.location with
  | some location => location.display ++ ": " ++ f.error.message
  | none => f.error.message

end UnitFailure

end SqlUnits
