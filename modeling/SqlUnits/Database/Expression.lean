import SqlUnits.Database.Scope
import SqlUnits.Number.Natural
/-!
Expressions: from syntax to evaluation. A missing value makes most results missing, and a whole
number too great for its width becomes a real.
-/

namespace SqlUnits

/-- A result column of a query. -/
structure ResultInfo where
  name : String
  /-- The name of the column to a query around this one. -/
  innerName : String
  affinity : Option Affinity
  collation : Option Collation
  /-- The declared type of a result of the statement. -/
  declType : Option String
  /-- The declared type of a column of a query inside another one. -/
  innerType : Option String

/-- A query whose names are resolved. -/
structure QueryPlan where
  columns : List ResultInfo
  run : Env → Run (List Stored)

/-- Resolution to a depth of nesting. -/
structure Resolver where
  term : Scope → Sql.Expr → Planner Term
  query : Scope → Sql.Select → Planner QueryPlan

namespace Term

def constant (v : Stored) : Term where
  eval := fun _ => pure v

def ofEval (eval : Env → Eval Stored) : Term where
  eval := eval

def truth (t : Term) (env : Env) : Eval (Option Bool) := do
  pure (← t.eval env).truth?

/-- The collation of a comparison; an operand's wish counts before a column's collation. -/
def commonCollation (a b : Term) : Collation :=
  if a.collated then a.collation.getD .binary
  else if b.collated then b.collation.getD .binary
  else (a.collation <|> b.collation).getD .binary

/-- The order of two values as a comparison of these terms sees it; `none` if one is missing. -/
def compareValues (a b : Term) (x y : Stored) : Option Ordering :=
  if x.isNull || y.isNull then none
  else
    let (x, y) := Stored.alike (Stored.comparisonAffinity a.affinity b.affinity) x y
    some (x.order (commonCollation a b) y)

def ordered (a b : Term) (x y : Stored) : Ordering :=
  let (x, y) := Stored.alike (Stored.comparisonAffinity a.affinity b.affinity) x y
  x.order (commonCollation a b) y

end Term

namespace Arithmetic

def ofWide (n : Int) (d : Double) : Stored :=
  if Int64.minValue.toInt ≤ n ∧ n ≤ Int64.maxValue.toInt then .ofInt n else .real d

def ofReal (d : Double) : Stored :=
  if d.isNan then .null else .real d

def apply (exact : Int → Int → Int) (rounded : Double → Double → Double) (a b : Stored) : Stored :=
  match a.toNumber, b.toNumber with
  | .null, _ => .null
  | _, .null => .null
  | .integer x, .integer y =>
      ofWide (exact x.toInt y.toInt) (rounded (Double.ofInt x.toInt) (Double.ofInt y.toInt))
  | x, y => ofReal (rounded x.toReal y.toReal)

/-- Division; by zero it gives nothing, and of whole numbers the whole part. -/
def divide (a b : Stored) : Stored :=
  match a.toNumber, b.toNumber with
  | .null, _ => .null
  | _, .null => .null
  | .integer x, .integer y =>
      if y = 0 then .null
      else
        ofWide (Int.tdiv x.toInt y.toInt)
          (((Double.ofInt x.toInt).div? (Double.ofInt y.toInt)).getD Double.nan)
  | x, y =>
      match x.toReal.div? y.toReal with
      | some d => ofReal d
      | none => .null

/-- The remainder of whole numbers; a text counts up to the first character that is no digit. -/
def remainder (a b : Stored) : Stored :=
  let n := Int.tmod a.toInteger.toInt b.toInteger.toInt
  match a.toNumber, b.toNumber with
  | .null, _ => .null
  | _, .null => .null
  | .integer _, .integer _ => if b.toInteger = 0 then .null else .ofInt n
  | _, _ => if b.toInteger = 0 then .null else .real (Double.ofInt n)

/-- Shifts to the left, or to the right by a negative amount; the sign is kept on the right. -/
def shifted (n : Int) (amount : Int) : Stored :=
  if amount ≥ 64 then .ofInt 0
  else if amount ≥ 0 then .integer (Int64.ofInt (n * twoPow amount.toNat))
  else if amount ≤ -64 then .ofInt (if n < 0 then -1 else 0)
  else .ofInt (n / twoPow (-amount).toNat)

def concat (a b : Stored) : Stored :=
  if a.isNull || b.isNull then .null
  else
    match a.toSqlText, b.toSqlText with
    | .text x, .text y => .text (x ++ y)
    | x, y => Stored.ofTextBytes (x.textBytes ++ y.textBytes)

/-- The difference from zero, so that no zero has a sign. -/
def negate (v : Stored) : Stored :=
  apply (· - ·) Double.sub (.ofInt 0) v

/-- An operation on the bits of two whole numbers. -/
def bits (f : Int64 → Int64 → Stored) (a b : Stored) : Stored :=
  if a.isNull || b.isNull then .null else f a.toInteger b.toInteger

end Arithmetic

namespace Expression

open Sql (Expr UnaryOp BinaryOp Problem)

def unary (op : UnaryOp) (t : Term) : Term :=
  match op with
  | .plus => { Term.ofEval t.eval with collation := t.collation, collated := t.collated }
  | .negate => .ofEval fun env => do pure (Arithmetic.negate (← t.eval env))
  | .bitNot =>
      .ofEval fun env => do
        let v ← t.eval env
        pure (if v.isNull then .null else .integer (~~~ v.toInteger))
  | .not => .ofEval fun env => do pure (Stored.ofTruth ((← t.truth env).map (!·)))

/-- The right side is evaluated only if the left side leaves the result open. -/
def conjunction (a b : Term) : Term :=
  .ofEval fun env => do
    match ← a.truth env with
    | some false => pure (.ofBool false)
    | x =>
        match x, ← b.truth env with
        | _, some false => pure (.ofBool false)
        | some true, some true => pure (.ofBool true)
        | _, _ => pure .null

def disjunction (a b : Term) : Term :=
  .ofEval fun env => do
    match ← a.truth env with
    | some true => pure (.ofBool true)
    | x =>
        match x, ← b.truth env with
        | _, some true => pure (.ofBool true)
        | some false, some false => pure (.ofBool false)
        | _, _ => pure .null

def both (a b : Term) (f : Stored → Stored → Stored) : Term :=
  .ofEval fun env => do
    let x ← a.eval env
    let y ← b.eval env
    pure (f x y)

def comparison (a b : Term) (holds : Ordering → Bool) : Term :=
  both a b fun x y => Stored.ofTruth ((Term.compareValues a b x y).map holds)

def binary (op : BinaryOp) (a b : Term) : Term :=
  match op with
  | .or => disjunction a b
  | .and => conjunction a b
  | .equal => comparison a b (· == .eq)
  | .notEqual => comparison a b (· != .eq)
  | .less => comparison a b (· == .lt)
  | .lessEqual => comparison a b (· != .gt)
  | .greater => comparison a b (· == .gt)
  | .greaterEqual => comparison a b (· != .lt)
  | .is => both a b fun x y => .ofBool (Term.ordered a b x y == .eq)
  | .isNot => both a b fun x y => .ofBool (Term.ordered a b x y != .eq)
  | .bitAnd => both a b (Arithmetic.bits fun x y => .integer (x &&& y))
  | .bitOr => both a b (Arithmetic.bits fun x y => .integer (x ||| y))
  | .shiftLeft => both a b (Arithmetic.bits fun x y => Arithmetic.shifted x.toInt y.toInt)
  | .shiftRight => both a b (Arithmetic.bits fun x y => Arithmetic.shifted x.toInt (-y.toInt))
  | .add => both a b (Arithmetic.apply (· + ·) Double.add)
  | .subtract => both a b (Arithmetic.apply (· - ·) Double.sub)
  | .multiply => both a b (Arithmetic.apply (· * ·) Double.mul)
  | .divide => both a b Arithmetic.divide
  | .remainder => both a b Arithmetic.remainder
  | .concat => both a b Arithmetic.concat

def negatedIf (negated : Bool) (t : Term) : Term :=
  if negated then unary .not t else t

/-- A term that is there already. -/
def holding (t : Term) (v : Stored) : Term :=
  { t with eval := fun _ => pure v }

def between (e low high : Term) : Term :=
  .ofEval fun env => do
    let v ← e.eval env
    let held := holding e v
    (conjunction (binary .greaterEqual held low) (binary .lessEqual held high)).eval env

/-- Membership in values found so far: true if one is equal, open if one is missing. -/
def memberOf (e : Term) (others : List Term) (v : Stored) (values : List Stored) : Stored :=
  let results := (others.zip values).map fun (t, w) => Term.compareValues e t v w
  if results.any (· == some .eq) then .ofBool true
  else if values.isEmpty then .ofBool false
  else if v.isNull || values.any Stored.isNull then .null
  else .ofBool false

def membership (e : Term) (items : List Term) : Term :=
  .ofEval fun env => do
    let v ← e.eval env
    let values ← items.mapM fun t => t.eval env
    pure (memberOf e (items.map fun t => { t with affinity := none }) v values)

/-- A column of an inner query as the other side of a comparison. -/
def columnTerm (c : ResultInfo) : Term :=
  { Term.constant .null with affinity := c.affinity, collation := c.collation }

/-- Whether a row is equal to one of many; open if only missing values prevent it. -/
def rowMember (terms : List Term) (columns : List ResultInfo) (vs : List Stored)
    (rows : List (List Stored)) : Stored :=
  let sides := terms.zip (columns.map columnTerm)
  let compareRow (row : List Stored) : Option Bool :=
    let parts := (sides.zip (vs.zip row)).map fun ((a, b), (x, y)) =>
      (Term.compareValues a b x y).map (· == .eq)
    if parts.any (· == some false) then some false
    else if parts.any Option.isNone then none
    else some true
  let results := rows.map compareRow
  if results.any (· == some true) then .ofBool true
  else if results.any Option.isNone then .null
  else .ofBool false

def ordinal (n : Nat) : String :=
  let ending :=
    if n % 100 ≥ 11 && n % 100 ≤ 13 then "th"
    else if n % 10 = 1 then "st"
    else if n % 10 = 2 then "nd"
    else if n % 10 = 3 then "rd" else "th"
  toString n ++ ending

def tooManyColumns (n expected : Nat) : String :=
  "sub-select returns " ++ toString n ++ " columns - expected " ++ toString expected

/-- The first row's first value, or a missing one. -/
def firstValue (q : QueryPlan) (env : Env) : Eval Stored := do
  match ← (q.run env).first? with
  | some row => pure (row.headD .null)
  | none => pure .null

/-- A query inside a statement, with the names of the levels around it in sight. -/
def innerQuery (r : Resolver) (scope : Scope) (q : Sql.Select) : Planner QueryPlan := do
  let (plan, _) ← Planner.separately (r.query scope.inList q)
  pure plan

/-- The truth value of a name that no column has. -/
def truthNamed? (name : String) : Option Bool :=
  if Text.sameLetters name "true" then some true
  else if Text.sameLetters name "false" then some false else none

def column (r : Resolver) (scope : Scope) (parts : List String) (quoted : Bool)
    (offset : Nat) : Planner Term := do
  let shown := String.intercalate "." parts
  match scope.meaning parts with
  | .column f => pure f.term
  | .asName level e =>
      let t ← r.term { scope with levels := scope.levels.drop level } e
      if level = 0 then pure t
      else
        pure { t with
          eval := fun env => t.eval { env with frames := env.frames.drop level } }
  | .ambiguous => Planner.refuse ("ambiguous column name: " ++ shown) (scope.place offset)
  | .unknown =>
      match parts with
      | [name] =>
          if quoted then pure (.constant (.text name))
          else if let some b := truthNamed? name then pure (.constant (.ofBool b))
          else Planner.refuse ("no such column: " ++ shown) (scope.place offset)
      | _ => Planner.refuse ("no such column: " ++ shown) (scope.place offset)

/-- The terms of arguments, from left to right. -/
def terms (r : Resolver) (scope : Scope) (es : List Expr) : Planner (List Term) :=
  es.mapM (r.term scope)

def optional (r : Resolver) (scope : Scope) : Option Expr → Planner (Option Term)
  | none => pure none
  | some e => some <$> r.term scope e

def registeredCall (f : Registered) (args : List Term) : Term :=
  .ofEval fun env => do
    let values ← args.mapM fun t => t.eval env
    Eval.called ⟨f.name, values⟩
    pure (.ofInt values.length)

/-- The first value that is there; those behind it are not evaluated. -/
def firstPresent : List Term → Env → Eval Stored
  | [], _ => pure .null
  | t :: rest, env => do
      let v ← t.eval env
      if v.isNull then firstPresent rest env else pure v

def rowCall (name : String) (args : List Term) : Term :=
  match name, args with
  | "coalesce", args => .ofEval (firstPresent args)
  | "ifnull", args => .ofEval (firstPresent args)
  | "iif", [test, a, b] =>
      .ofEval fun env => do
        if (← test.truth env) == some true then a.eval env else b.eval env
  | name, args =>
      let collation := (args.findSome? (·.collation)).getD .binary
      .ofEval fun env => do
        let values ← args.mapM fun t => t.eval env
        match Scalar.call name collation env.facts values with
        | .ok v => pure v
        | .error m => Eval.fail m

def aggregateCall (r : Resolver) (scope : Scope) (name : String) (offset : Nat)
    (kind : AggregateKind) (distinct : Bool) (args : List Expr) (filter : Option Expr) :
    Planner Term := do
  match scope.aggregates with
  | .misused text =>
      let _ ← terms r scope args
      Planner.refuse (text ++ name ++ "()") (scope.place offset)
  | .collected =>
      let inside := { scope with aggregates := .misused "misuse of aggregate function " }
      let args ← terms r inside args
      let filter ← optional r inside filter
      if distinct && args.length ≠ 1 then
        Planner.refuse "DISTINCT aggregates must have exactly one argument"
      let collation := (args.head?.bind (·.collation)).getD .binary
      let index ← Planner.collect ⟨kind, distinct, args, filter, collation⟩
      pure (.ofEval fun env => pure (env.aggregate index))

/-- Resolves a call. A fault in its arguments comes before one in the call. -/
def call (r : Resolver) (scope : Scope) (name : String) (offset : Nat) (distinct : Bool)
    (args : List Expr) (filter : Option Expr) : Planner Term := do
  let key := Text.lowerString name
  let refused (message : String) : Planner Term := do
    let _ ← terms r scope args
    Planner.refuse message (scope.place offset)
  let wrongCount := refused ("wrong number of arguments to function " ++ name ++ "()")
  let named := scope.functions.filter fun f => Text.sameLetters f.name name
  match named.find? (·.args == args.length) with
  | some f => registeredCall f <$> terms r scope args
  | none =>
      match AggregateKind.ofCall? key args.length, Scalar.arity? key with
      | some (kind, true), _ => aggregateCall r scope name offset kind distinct args filter
      | some (_, false), _ => wrongCount
      | none, some arity =>
          if arity.admits args.length then rowCall key <$> terms r scope args else wrongCount
      | none, none =>
          if named.isEmpty then refused ("no such function: " ++ name) else wrongCount

/-- A pattern match is a call with the pattern in front. -/
def matching (scope : Scope) (operator : String) (offset : Nat) (e pattern : Term) (escape : Option Term) :
    Planner Term := do
  match Text.upperString operator with
  | "LIKE" => pure (rowCall "like" ([pattern, e] ++ escape.toList))
  | "GLOB" => pure (rowCall "glob" [pattern, e])
  | "MATCH" =>
      pure (.ofEval fun _ =>
        Eval.fail "unable to use function MATCH in the requested context")
  | _ => Planner.refuse ("no such function: " ++ operator) (scope.place offset)

def choose (operand : Option Term) : List (Term × Term) → Option Term → Env → Option Stored →
    Eval Stored
  | [], none, _, _ => pure .null
  | [], some t, env, _ => t.eval env
  | (test, result) :: rest, otherwise, env, held => do
      let holds ←
        match operand, held with
        | some o, some v => do
            let w ← test.eval env
            pure (Term.compareValues o test v w == some .eq)
        | _, _ => do pure ((← test.truth env) == some true)
      if holds then result.eval env else choose operand rest otherwise env held

def choice (operand : Option Term) (branches : List (Term × Term)) (otherwise : Option Term) :
    Term :=
  .ofEval fun env => do
    let held ←
      match operand with
      | some t => some <$> t.eval env
      | none => pure none
    choose operand branches otherwise env held

/-- The expressions of a row, or of a single value. -/
def rowItems : Expr → List Expr
  | .row items => items
  | e => [e]

/-- Equal rows are equal in all their parts. -/
def rowComparison (op : BinaryOp) (as bs : List Term) : Planner Term := do
  let parts := (as.zip bs).map fun (a, b) => binary .equal a b
  let equal := parts.foldl conjunction (.constant (.ofBool true))
  if as.length ≠ bs.length then Planner.refuse "row value misused"
  else
    match op with
    | .equal => pure equal
    | .notEqual => pure (unary .not equal)
    | _ => Planner.refuse "row value misused"

/-- The truth value that an expression names, if no column has that name. -/
def truthValue? (scope : Scope) : Expr → Option Bool
  | .column [name] false _ =>
      match scope.meaning [name] with
      | .unknown => truthNamed? name
      | _ => none
  | _ => none

/-- A test for truth never leaves the result open. -/
def truthTest (negated wanted : Bool) (t : Term) : Term :=
  .ofEval fun env => do pure (.ofBool (((← t.truth env) == some wanted) != negated))

/-- `IS` and `IS NOT`, which test for truth if a truth value stands on the right. A name there is
resolved before the left side. -/
def identity (r : Resolver) (scope : Scope) (op : BinaryOp) (a b : Expr) : Planner Term := do
  match truthValue? scope b, b with
  | some wanted, _ => truthTest (op == .isNot) wanted <$> r.term scope a
  | none, .column [_] _ _ =>
      let b ← r.term scope b
      let a ← r.term scope a
      pure (binary op a b)
  | none, _ =>
      let a ← r.term scope a
      let b ← r.term scope b
      pure (binary op a b)

def binaryExpr (r : Resolver) (scope : Scope) (op : BinaryOp) (a b : Expr) : Planner Term := do
  match op, a, b with
  | _, .row as, .row bs =>
      let as ← terms r scope.inList as
      let bs ← terms r scope.inList bs
      rowComparison op as bs
  | .is, _, _ => identity r scope op a b
  | .isNot, _, _ => identity r scope op a b
  | _, _, _ =>
      let a ← r.term scope a
      let b ← r.term scope b
      pure (binary op a b)

def queryMembership (r : Resolver) (scope : Scope) (e : Expr) (q : Sql.Select) :
    Planner Term := do
  let left ← terms r scope (rowItems e)
  let plan ← innerQuery r scope q
  if plan.columns.length ≠ left.length then
    Planner.refuse (tooManyColumns plan.columns.length left.length)
  else
    pure (.ofEval fun env => do
      let vs ← left.mapM fun t => t.eval env
      let rows ← (plan.run env).all
      pure (rowMember left plan.columns vs rows))

def scalarQuery (r : Resolver) (scope : Scope) (q : Sql.Select) : Planner Term := do
  let plan ← innerQuery r scope q
  match plan.columns with
  | [c] =>
      pure { Term.ofEval (firstValue plan) with
        affinity := c.affinity, declType := c.declType }
  | cs => Planner.refuse (tooManyColumns cs.length 1)

/-- Resolves the names of an expression. -/
def resolve (r : Resolver) (scope : Scope) (e : Expr) : Planner Term := do
  match e with
  | .literal v => pure (.constant v)
  | .param index => pure (.ofEval fun env => pure ((env.params[index - 1]?).getD .null))
  | .column parts quoted offset => column r scope parts quoted offset
  | .unary .negate (.literal (.real d)) => pure (.constant (.real d.neg))
  | .unary op e => unary op <$> r.term scope e
  | .binary op a b => binaryExpr r scope op a b
  | .between negated e low high =>
      let e ← r.term scope e
      let low ← r.term scope.inList low
      let high ← r.term scope.inList high
      pure (negatedIf negated (between e low high))
  | .matching operator offset negated e pattern escape =>
      let pattern ← r.term scope pattern
      let e ← r.term scope e
      let escape ← optional r scope escape
      negatedIf negated <$> matching scope operator offset e pattern escape
  | .isNull negated e =>
      let t ← r.term scope e
      pure (.ofEval fun env => do pure (.ofBool ((← t.eval env).isNull != negated)))
  | .collate e name =>
      let t ← r.term scope e
      match Collation.ofName? name with
      | some c => pure { t with collation := some c, collated := true, label := none, declType := none }
      | none => Planner.refuse ("no such collation sequence: " ++ name)
  | .cast e type =>
      let t ← r.term scope e
      pure { Term.ofEval (fun env => do pure ((← t.eval env).castTo type)) with
        affinity := some (.ofType type), collation := t.collation }
  | .choice operand branches otherwise =>
      let operand ← optional r scope operand
      let branches ← branches.mapM fun (test, result) => do
        let test ← r.term scope.inList test
        let result ← r.term scope.inList result
        pure (test, result)
      let otherwise ← optional r scope.inList otherwise
      pure (choice operand branches otherwise)
  | .call name offset distinct _ args filter => call r scope name offset distinct args filter
  | .inList negated e items =>
      let e ← r.term scope e
      let items ← terms r scope.inList items
      pure (negatedIf negated (membership e items))
  | .inQuery negated e q => negatedIf negated <$> queryMembership r scope e q
  | .exists q =>
      let plan ← innerQuery r scope q
      pure (.ofEval fun env => do pure (.ofBool (← (plan.run env).first?).isSome))
  | .scalar q => scalarQuery r scope q
  | .row [e] => r.term scope e
  | .row _ => Planner.refuse "row value misused"

end Expression

end SqlUnits
