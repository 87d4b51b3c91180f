import SqlUnits.Check.Inference
import SqlUnits.Number.Integer
import SqlUnits.Number.Natural
import SqlUnits.Query.Parsed
/-!
Which parameter every placeholder stands for. Placeholders are named, by the name of a parameter
or its number, or they are question marks that an argument list gives names to; never both.
-/

namespace SqlUnits

namespace MethodDecl

/-- The parameter that a name means; a number counts the parameters from one. -/
def resolveName (method : MethodDecl) (name : String) : Except ValidationError String :=
  match Text.toNatBelow? (twoPow 64) name.toList with
  | some number =>
      match if number = 0 then none else method.params[number - 1]? with
      | some param => .ok param.name.name
      | none =>
          .error (.configuration ("Placeholder :" ++ name ++ " is out of range, " ++
            method.name.name ++ " has " ++ toString method.params.length ++ " parameters"))
  | none =>
      match method.param? name with
      | some param => .ok param.name.name
      | none =>
          .error (.configuration ("Unknown parameter " ++ name ++ " in method " ++
            method.name.name))

def argumentNames (method : MethodDecl) (args : List Ident) :
    Except ValidationError (List String) :=
  args.mapM fun a => method.resolveName a.name

/-- The parameters of the placeholders, in the order of the placeholders. -/
def bindPlaceholders (method : MethodDecl) (explicit : Option (List Ident))
    (q : Query.ParsedQuery) : Except ValidationError (List String) :=
  if q.hasNamed then
    if q.hasPositional then
      .error (.syntaxError "Statement mixes named and positional placeholders")
    else if explicit.isSome then
      .error (.syntaxError "An argument list cannot be combined with named placeholders")
    else q.placeholders.mapM fun p => method.resolveName (p.name.getD "")
  else
    let args := explicit.getD []
    if args.length ≠ q.paramCount then
      .error (.syntaxError ("Statement has " ++ toString q.paramCount ++ " placeholders but " ++
        toString args.length ++ " arguments"))
    else method.argumentNames args

end MethodDecl

/-- The value of a sample; the text of a date or a timestamp is read only here. -/
def Sample.value : Sample → Except ValidationError Value
  | .null => .ok .null
  | .bool b => .ok (.bool b)
  | .int n => .ok (.int n)
  | .long n => .ok (.long n)
  | .double d => .ok (.double d)
  | .text s => .ok (.text s)
  | .bytes b => .ok (.bytes b)
  | .date s => (Value.parseDate s).mapError .configuration
  | .timestamp s => (Value.parseTimestamp s).mapError .configuration

namespace ParamTable

def typeOf (table : ParamTable) (name : String) : Except ValidationError ValueType :=
  match table.get? name with
  | some type => .ok type
  | none => .error (.configuration ("Parameter " ++ name ++ " has no resolved type"))

end ParamTable

/-- What a parameter is bound to while its unit is checked: its sample, or else the test value of
its type. -/
def Registry.executionValue (registry : Registry) (method : MethodDecl) (name : String)
    (type : ValueType) : Except ValidationError Value :=
  match (method.param? name).bind (·.sample) with
  | some sample => sample.value
  | none => (·.testValue) <$> (registry.resolve type).mapError .ofAccess

/-- The arguments of a statement: parameters in the order of its placeholders, with their types
and the values that they are bound to. -/
structure Arguments where
  names : List String
  types : List ValueType
  values : List Value

def Arguments.ofStatement (registry : Registry) (table : ParamTable) (method : MethodDecl)
    (s : StatementDecl) (q : Query.ParsedQuery) : Except ValidationError Arguments := do
  let names ← method.bindPlaceholders s.args q
  let types ← names.mapM table.typeOf
  let values ← (names.zip types).mapM fun (name, type) =>
    registry.executionValue method name type
  pure ⟨names, types, values⟩

end SqlUnits
