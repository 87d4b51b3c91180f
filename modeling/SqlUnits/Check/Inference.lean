import SqlUnits.Access.Mapper
import SqlUnits.Check.Failure
import SqlUnits.Unit.Syntax
/-!
Parameter types. All parameters of one name in a unit are one identity: they must have one type,
and the first declaration is the site of it.
-/

namespace SqlUnits

structure ResolvedParam where
  type : ValueType
  site : Location
deriving DecidableEq

/-- Types by parameter name, in order of the names. -/
structure ParamTable where
  entries : List (String × ResolvedParam) := []
deriving DecidableEq

namespace ParamTable

def find? (table : ParamTable) (name : String) : Option ResolvedParam :=
  table.entries.lookup name

def get? (table : ParamTable) (name : String) : Option ValueType :=
  (table.find? name).map (·.type)

def insertByName (name : String) (param : ResolvedParam) :
    List (String × ResolvedParam) → List (String × ResolvedParam)
  | [] => [(name, param)]
  | (n, p) :: rest =>
      if name < n then (name, param) :: (n, p) :: rest else (n, p) :: insertByName name param rest

/-- Records a type; another type for a known name is a conflict. -/
def resolve (table : ParamTable) (name : String) (type : ValueType) (site : Location) :
    Except ValidationError ParamTable :=
  match table.find? name with
  | some known =>
      if known.type = type then .ok table
      else .error (.typeConflict name known.type known.site type site)
  | none => .ok ⟨insertByName name ⟨type, site⟩ table.entries⟩

end ParamTable

namespace Inference

/-- The type that a declaration supplies. -/
def declaredType (param : ParamDecl) (registry : Registry) : Except ValidationError ValueType := do
  let name := param.name.name
  let refuse (reason : String) : Except ValidationError ValueType :=
    throw (.configuration ("Parameter " ++ name ++ " " ++ reason))
  let type ← match param.type, param.sample with
    | none, none => refuse "needs a type or a sample value"
    | some declared, none => pure declared
    | declared?, some sample =>
        match declared?, sample.valueType? with
        | none, none => refuse "has a null sample value, which cannot supply a type"
        | some declared, none => pure declared
        | none, some sampled => pure sampled
        | some declared, some sampled =>
            if sampled.widensTo declared then pure declared
            else refuse ("is declared " ++ declared.name ++ " but its sample value is " ++
              sampled.name)
  if registry.contains type then pure type
  else refuse ("has type " ++ type.name ++ ", but no value mapper is registered for it")

/-- The stack of an error in the declaration of a parameter. -/
def stack (unit : SourceUnit) (method : MethodDecl) (param : ParamDecl) : List Frame :=
  [Frame.engine "infer", ⟨unit.methodOwner method, unit.path, param.line⟩,
    ⟨unit.name.name, unit.path, unit.line⟩]

def resolveParam (unit : SourceUnit) (registry : Registry) (table : ParamTable)
    (declaration : MethodDecl × ParamDecl) : Except UnitFailure ParamTable :=
  let (method, param) := declaration
  let resolved := do
    let type ← declaredType param registry
    table.resolve param.name.name type (Location.atLine unit.path param.line)
  resolved.mapError fun error => ⟨error, stack unit method param⟩

/-- The parameter declarations of a unit in source order, each with its method. -/
def declarations (unit : SourceUnit) : List (MethodDecl × ParamDecl) :=
  unit.methods.flatMap fun method => method.params.map (method, ·)

def ofUnit (unit : SourceUnit) (registry : Registry) : Except UnitFailure ParamTable :=
  (declarations unit).foldlM (resolveParam unit registry) {}

end Inference

end SqlUnits
