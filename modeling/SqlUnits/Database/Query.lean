import SqlUnits.Database.Source
/-!
Queries: the rows of their sources, filtered, grouped, projected, made distinct, sorted, cut.
A query that neither groups nor sorts yields each row as soon as it has it.
-/

namespace SqlUnits

namespace Query

open Sql (Expr Core ResultColumn OrderTerm SetOp CommonTable)

/-- A result of a query: its term, its name, and what the statement wrote for it. -/
structure Result where
  term : Term
  name : String
  asName : Option String := none
  source : Option Expr := none
  text : String := ""

/-- The name that an expression has as a column of a query inside another one. -/
def plainName (text : String) : Expr → String
  | .collate e _ => plainName text e
  | .column parts _ _ => (parts.getLast?).getD text
  | _ => text

def Result.innerName (r : Result) : String :=
  match r.asName, r.source with
  | none, some e => plainName r.text e
  | _, _ => r.name

def Result.info (r : Result) : ResultInfo where
  name := r.name
  innerName := r.innerName
  affinity := r.term.affinity
  collation := r.term.collation
  declType := r.term.declType
  innerType := r.term.declType

/-- The columns of a source as results, those that it shares left out. -/
def allOf (s : SourceInfo) : List Result :=
  s.columns.zipIdx.filterMap fun (c, i) =>
    if c.shared then none
    else
      let f : Scope.Found := ⟨0, s.start + i, c⟩
      some { term := f.term, name := c.name }

/-- A name that two sources of the query have makes its columns ambiguous. -/
def ambiguousStar? (infos : List SourceInfo) : Option String :=
  let rec first : List SourceInfo → Option String
    | [] => none
    | s :: rest =>
        if rest.any fun t => !s.name.isEmpty && Text.sameLetters s.name t.name then
          (s.columns.head?).map fun c => "main." ++ s.name ++ "." ++ c.name
        else first rest
  first infos

def expand (r : Resolver) (scope : Scope) (infos : List SourceInfo) (column : ResultColumn) :
    Planner (List Result) := do
  match column with
  | .expr e asName text =>
      let t ← r.term scope e
      pure [⟨t, asName.getD (t.label.getD text), asName, some e, text⟩]
  | .all =>
      if infos.isEmpty then Planner.refuse "no tables specified"
      else
        match ambiguousStar? infos with
        | some name => Planner.refuse ("ambiguous column name: " ++ name) (some 7)
        | none => pure (infos.flatMap allOf)
  | .allOf table =>
      let named := infos.filter fun s => Text.sameLetters s.name table
      if named.isEmpty then Planner.refuse ("no such table: " ++ table)
      else
        pure (named.flatMap fun s =>
          allOf { s with columns := s.columns.map fun c => { c with shared := false } })

def aliases (results : List Result) : List (String × Expr) :=
  results.filterMap fun r =>
    match r.asName, r.source with
    | some a, some e => some (a, e)
    | _, _ => none

/-- How a sort compares one of its keys. -/
structure KeyOrder where
  collation : Collation
  descending : Bool
  nullsFirst : Bool

inductive SortSource where
  | result (index : Nat)
  | term (t : Term)

structure SortKey where
  source : SortSource
  order : KeyOrder

def keyOrder (collation : Option Collation) (descending : Bool) (nullsFirst : Option Bool) :
    KeyOrder :=
  ⟨collation.getD .binary, descending, nullsFirst.getD (!descending)⟩

/-- The result that a whole number of 32 bits in a clause stands for. -/
def position? (e : Expr) : Option Int :=
  match e with
  | .literal (.integer n) =>
      if 0 ≤ n.toInt ∧ n.toInt ≤ 2147483647 then some n.toInt else none
  | .unary .negate e => (position? e).map (-·)
  | .unary .plus e => position? e
  | _ => none

def outOfRange (place : Nat) (clause : String) (count : Nat) : String :=
  Expression.ordinal place ++ " " ++ clause ++ " BY term out of range - should be between 1 and " ++
    toString count

def resultAt (results : List Result) (n : Int) (place : Nat) (clause : String) :
    Planner Nat := do
  if n < 1 || n > results.length then
    Planner.refuse (outOfRange place clause results.length)
  else pure (n.toNat - 1)

def aliasIndex? (results : List Result) (e : Expr) : Option Nat :=
  match e with
  | .column [name] _ _ =>
      results.findIdx? fun r => r.asName.any (Text.sameLetters · name)
  | _ => none

def sortKey (r : Resolver) (scope : Scope) (results : List Result) (place : Nat) :
    OrderTerm → Planner SortKey
  | .mk e descending nullsFirst => do
      let byResult (i : Nat) : SortKey :=
        let collation := (results[i]?).bind (·.term.collation)
        ⟨.result i, keyOrder collation descending nullsFirst⟩
      match position? e, aliasIndex? results e with
      | some n, _ => byResult <$> resultAt results n place "ORDER"
      | none, some i => pure (byResult i)
      | none, none =>
          let t ← r.term scope e
          pure ⟨.term t, keyOrder t.collation descending nullsFirst⟩

def sortKeys (r : Resolver) (scope : Scope) (results : List Result) (order : List OrderTerm) :
    Planner (List SortKey) :=
  (order.zipIdx 1).mapM fun (t, place) => sortKey r scope results place t

def groupTerm (r : Resolver) (scope : Scope) (results : List Result) (place : Nat) (e : Expr) :
    Planner Term := do
  match position? e with
  | some n =>
      let i ← resultAt results n place "GROUP"
      match results[i]? with
      | some result => pure result.term
      | none => pure (.constant .null)
  | none => r.term scope e

def groupTerms (r : Resolver) (scope : Scope) (results : List Result) (groups : List Expr) :
    Planner (List Term) := do
  let (ts, calls) ← Planner.separately
    ((groups.zipIdx 1).mapM fun (e, place) =>
      groupTerm r { scope with aggregates := .collected } results place e)
  if calls.isEmpty then pure ts
  else Planner.refuse "aggregate functions are not allowed in the GROUP BY clause"

/-- Whether two values are the same to a group, a set, or a distinct result. -/
def sameValue (collation : Collation) (a b : Stored) : Bool :=
  a.order collation b == .eq

def sameRow (collations : List Collation) (a b : List Stored) : Bool :=
  (collations.zip (a.zip b)).all fun (c, (x, y)) => sameValue c x y

def compareKey (k : KeyOrder) (a b : Stored) : Ordering :=
  if a.isNull && b.isNull then .eq
  else if a.isNull then if k.nullsFirst then .lt else .gt
  else if b.isNull then if k.nullsFirst then .gt else .lt
  else if k.descending then (a.order k.collation b).swap else a.order k.collation b

def compareKeys : List KeyOrder → List Stored → List Stored → Ordering
  | k :: ks, a :: as, b :: bs => (compareKey k a b).then (compareKeys ks as bs)
  | _, _, _ => .eq

/-- Rows in the order of their keys; rows with equal keys stay in order. -/
def sortRows (orders : List KeyOrder) (rows : List (List Stored × List Stored)) :
    List (List Stored × List Stored) :=
  rows.mergeSort fun a b => compareKeys orders a.2 b.2 != .gt

def ascending (collations : List Collation) : List KeyOrder :=
  collations.map fun c => ⟨c, false, true⟩

/-- The events whose rows have not been there before. -/
def distinctEvents (collations : List Collation) (seen : List (List Stored)) :
    List (Event (List Stored × List Stored)) → List (Event (List Stored × List Stored))
  | [] => []
  | .called c :: rest => .called c :: distinctEvents collations seen rest
  | .item row :: rest =>
      if seen.any (sameRow collations row.1) then distinctEvents collations seen rest
      else .item row :: distinctEvents collations (row.1 :: seen) rest

def distinctRun (collations : List Collation) (run : Run (List Stored × List Stored)) :
    Run (List Stored × List Stored) :=
  { run with events := distinctEvents collations [] run.events }

def sortedRun (orders : List KeyOrder) (run : Run (List Stored × List Stored)) :
    Run (List Stored × List Stored) :=
  if orders.isEmpty then run else run.gather fun rows => .ofList (sortRows orders rows)

/-- The values of a group's aggregates, the arguments taken from each of its rows. -/
def aggregateValue (env : Env) (rows : List (List Stored)) (call : AggregateCall) :
    Eval (Stored × List (List Stored)) := do
  let argsOf (row : List Stored) : Eval (Option (List Stored)) := do
    let env := env.push ⟨row, []⟩
    let kept ←
      match call.filter with
      | some t => do pure ((← t.truth env) == some true)
      | none => pure true
    if kept then some <$> call.args.mapM fun t => t.eval env else pure none
  let found ← rows.mapM argsOf
  let args := found.filterMap id
  let used :=
    if call.distinct then
      args.foldl (fun seen a => if seen.any (sameRow [call.collation] a) then seen else seen ++ [a])
        []
    else args
  match call.kind.result call.collation used with
  | .ok v => pure (v, found.map fun a => a.getD [])
  | .error m => Eval.fail m

/-- The row of a group that its plain columns are read from: where its last least or greatest
value was found, or else the first one. -/
def plainRow (calls : List (AggregateCall × List (List Stored))) (rows : List (List Stored)) :
    Option (List Stored) :=
  let extreme := calls.reverse.find? fun c => c.1.kind.isExtreme
  match extreme with
  | none => rows.head?
  | some (call, args) =>
      let wanted := if call.kind = .least then Ordering.lt else Ordering.gt
      let values := args.map AggregateKind.firstArg
      match AggregateKind.best call.collation wanted values with
      | some (i, _) => rows[i]?
      | none => rows.getLast?

/-- The frame of a group: a plain row, and the values of the aggregates. -/
def groupFrame (env : Env) (width : Nat) (calls : List AggregateCall)
    (rows : List (List Stored)) : Eval RowFrame := do
  let results ← calls.mapM (aggregateValue env rows)
  let row := plainRow (calls.zip (results.map (·.2))) rows
  pure ⟨row.getD (List.replicate width .null), results.map (·.1)⟩

/-- Rows by the values of their group, in the order of those values. -/
def partition (collations : List Collation) (rows : List (List Stored × List Stored)) :
    List (List (List Stored)) :=
  let sorted := sortRows (ascending collations) rows
  let groups := sorted.foldl (fun groups (row, key) =>
    match groups with
    | (k, members) :: rest =>
        if sameRow collations k key then (k, row :: members) :: rest
        else (key, [row]) :: (k, members) :: rest
    | [] => [(key, [row])]) ([] : List (List Stored × List (List Stored)))
  (groups.map fun g => g.2.reverse).reverse

/-- What a core is made of once its names are resolved. -/
structure CorePlan where
  results : List Result
  distinct : Bool
  width : Nat
  rows : Env → Run (List Stored)
  condition : Option Term
  aggregated : Bool
  calls : List AggregateCall
  groups : List Term
  having : Option Term
  keys : List SortKey

namespace CorePlan

def filtered (p : CorePlan) (env : Env) : Run (List Stored) :=
  match p.condition with
  | none => p.rows env
  | some t => (p.rows env).filterEval fun row => do pure ((← t.truth (env.push ⟨row, []⟩)) == some true)

/-- The frames of the groups. -/
def frames (p : CorePlan) (env : Env) : Run RowFrame :=
  let keyed := (p.filtered env).mapEval fun row => do
    let key ← p.groups.mapM fun t => t.eval (env.push ⟨row, []⟩)
    pure (row, key)
  keyed.gather fun rows =>
    let collations := p.groups.map fun t => t.collation.getD .binary
    let groups :=
      if p.groups.isEmpty then [rows.map (·.1)] else partition collations rows
    (Run.ofList groups).mapEval (groupFrame env p.width p.calls)

/-- The values and the sort keys of one result row. -/
def project (p : CorePlan) (env : Env) (frame : RowFrame) : Eval (List Stored × List Stored) := do
  let env := env.push frame
  let values ← p.results.mapM fun r => r.term.eval env
  let keys ← p.keys.mapM fun k =>
    match k.source with
    | .result i => pure ((values[i]?).getD .null)
    | .term t => t.eval env
  pure (values, keys)

def having? (p : CorePlan) (env : Env) (frame : RowFrame) : Eval Bool := do
  match p.having with
  | none => pure true
  | some t => do pure ((← t.truth (env.push frame)) == some true)

def resultFrames (p : CorePlan) (env : Env) : Run RowFrame :=
  if p.aggregated then (p.frames env).filterEval (p.having? env)
  else (p.filtered env).bind fun row => .ofList [⟨row, []⟩]

def run (p : CorePlan) (env : Env) : Run (List Stored) :=
  let rows := (p.resultFrames env).mapEval (p.project env)
  let collations := p.results.map fun r => r.term.collation.getD .binary
  let rows := if p.distinct then distinctRun collations rows else rows
  (sortedRun (p.keys.map (·.order)) rows).bind fun row => .ofList [row.1]

def plan (p : CorePlan) : QueryPlan where
  columns := p.results.map Result.info
  run := p.run

end CorePlan

/-- What the parts of a query between its sources and its order are. -/
structure Clauses where
  distinct : Bool
  columns : List ResultColumn
  sources : List Sql.Joined
  condition : Option Expr
  groups : List Expr
  having : Option Expr

/-- Resolves a core: its sources, its results, then the clauses that may use them. -/
def selectCore (r : Resolver) (scope : Scope) (c : Clauses) (order : List OrderTerm) :
    Planner CorePlan := do
  let (infos, parts) ← Source.arranged r scope c.sources
  let level (names : List (String × Expr)) : List Level := ⟨infos, names⟩ :: scope.levels
  let inside := { scope with levels := level [], aggregates := .collected }
  let results := (← c.columns.mapM (expand r inside infos)).flatten
  let aggregated := !c.groups.isEmpty || !(← get).isEmpty
  let misused := AggregateUse.misused "misuse of aggregate: "
  let behind := { scope with levels := level (aliases results), aggregates := misused }
  let grouped := if aggregated then { behind with aggregates := .collected } else behind
  if c.having.isSome && !aggregated then
    Planner.refuse "HAVING clause on a non-aggregate query"
  let having ← Expression.optional r grouped c.having
  let tests :=
    if aggregated then behind
    else { behind with aggregates := .misused "misuse of aggregate function " }
  let condition ← Expression.optional r tests c.condition
  let steps ← parts.mapM (Source.joinStep r tests)
  let keys ← sortKeys r grouped results order
  let groups ← groupTerms r behind results c.groups
  let calls ← get
  pure
    { results, distinct := c.distinct, width := Source.totalWidth parts
      rows := Source.joinedRows steps, condition, aggregated, calls, groups, having, keys }

def valuesPlan (r : Resolver) (scope : Scope) (rows : List (List Expr)) : Planner QueryPlan := do
  let width := (rows.head?.map List.length).getD 0
  if rows.any fun row => row.length ≠ width then
    Planner.refuse "all VALUES must have the same number of terms"
  let terms ← rows.mapM (Expression.terms r scope)
  let columns := (List.range width).map fun i =>
    let name := "column" ++ toString (i + 1)
    (⟨name, name, none, none, none, none⟩ : ResultInfo)
  pure ⟨columns, fun env => (Run.ofList terms).mapEval fun ts => ts.mapM fun t => t.eval env⟩

/-- A core that is a query of its own, with its order. -/
def corePlan (r : Resolver) (scope : Scope) (order : List OrderTerm) : Core → Planner QueryPlan
  | .values rows => valuesPlan r scope rows
  | .select distinct columns sources condition groups having => do
      let (p, _) ← Planner.separately
        (selectCore r scope ⟨distinct, columns, sources, condition, groups, having⟩ order)
      pure p.plan

/-- The rows of a set in order, of equal ones the last. -/
def setOf (collations : List Collation) (rows : List (List Stored)) : List (List Stored) :=
  let sorted := (sortRows (ascending collations) (rows.map fun row => (row, row))).map (·.1)
  (sorted.foldl (fun kept row =>
    match kept with
    | last :: more => if sameRow collations last row then row :: more else row :: kept
    | [] => [row]) []).reverse

def combineRows (collations : List Collation) (op : SetOp) (a b : List (List Stored)) :
    List (List Stored) :=
  let has (rows : List (List Stored)) (row : List Stored) : Bool :=
    rows.any (sameRow collations row)
  match op with
  | .union => setOf collations (a ++ b)
  | .unionAll => a ++ b
  | .intersect => setOf collations (a.filter (has b))
  | .except => setOf collations (a.filter fun row => !has b row)

/-- Two queries as one. The names are those of the first, and to a query around them the types are
those of the last. -/
def combine (op : SetOp) (a b : QueryPlan) : QueryPlan where
  columns := (a.columns.zip b.columns).map fun (x, y) => { x with innerType := y.innerType }
  run := fun env =>
    if op = .unionAll then (a.run env).append (b.run env)
    else
      (a.run env).gather fun left =>
        (b.run env).gather fun right =>
          .ofList (combineRows (a.columns.map fun c => c.collation.getD .binary) op left right)

def combineAll : QueryPlan → List (SetOp × QueryPlan) → QueryPlan
  | plan, [] => plan
  | plan, (op, next) :: rest => combineAll (combine op plan next) rest

def sameWidth (op : SetOp) (left right : QueryPlan) : Planner Unit := do
  if left.columns.length ≠ right.columns.length then
    Planner.refuse ("SELECTs to the left and right of " ++ op.name ++
      " do not have the same number of result columns")

/-- Resolves cores that set operators join, and compares their widths; the last core comes first. -/
def compoundPlans (r : Resolver) (scope : Scope) (first : Core) :
    List (SetOp × Core) → Planner (QueryPlan × List (SetOp × QueryPlan))
  | [] => do pure (← corePlan r scope [] first, [])
  | (op, core) :: rest => do
      let (next, others) ← compoundPlans r scope core rest
      let plan ← corePlan r scope [] first
      sameWidth op plan next
      pure (plan, (op, next) :: others)

/-- Whether two expressions are written alike. -/
def alike : Nat → Expr → Expr → Bool
  | 0, _, _ => false
  | fuel + 1, a, b =>
      match a, b with
      | .literal v, .literal w => v == w
      | .param i, .param j => i == j
      | .column ps _ _, .column qs _ _ =>
          ps.length == qs.length && (ps.zip qs).all fun (p, q) => Text.sameLetters p q
      | .unary o x, .unary p y => o == p && alike fuel x y
      | .binary o x y, .binary p z w => o == p && alike fuel x z && alike fuel y w
      | .collate x c, .collate y d => Text.sameLetters c d && alike fuel x y
      | .call f _ _ _ xs _, .call g _ _ _ ys _ =>
          Text.sameLetters f g && xs.length == ys.length &&
            (xs.zip ys).all fun (x, y) => alike fuel x y
      | _, _ => false

/-- The expressions behind the results of a core, with their names. -/
def written : Core → List (Option String × Expr)
  | .values _ => []
  | .select _ columns _ _ _ _ =>
      columns.filterMap fun
        | .expr e asName _ => some (asName, e)
        | _ => none

def matchWritten? (e : Expr) (cores : List Core) : Option Nat :=
  cores.findSome? fun c =>
    (written c).findIdx? fun (asName, x) =>
      alike 100 e x ||
        match e, asName with
        | .column [name] _ _, some a => Text.sameLetters a name
        | _, _ => false

/-- A sort of several cores goes by results alone. -/
def compoundKey (plan : QueryPlan) (cores : List Core) (place : Nat) :
    OrderTerm → Planner SortKey
  | .mk e descending nullsFirst => do
      let (bare, asked) :=
        match e with
        | .collate x name => (x, Collation.ofName? name)
        | x => (x, none)
      let byResult (i : Nat) : SortKey :=
        let collation := asked <|> ((plan.columns[i]?).bind (·.collation))
        ⟨.result i, keyOrder collation descending nullsFirst⟩
      let named : Option Nat :=
        match bare with
        | .column [name] _ _ => plan.columns.findIdx? fun c => Text.sameLetters c.name name
        | _ => none
      match position? bare with
      | some n =>
          if n < 1 || n > plan.columns.length then
            Planner.refuse (outOfRange place "ORDER" plan.columns.length)
          else pure (byResult (n.toNat - 1))
      | none =>
          match matchWritten? bare cores <|> named with
          | some i => pure (byResult i)
          | none =>
              Planner.refuse (Expression.ordinal place ++
                " ORDER BY term does not match any column in the result set")

def sortCompound (keys : List SortKey) (plan : QueryPlan) : QueryPlan :=
  let keyOf (row : List Stored) (k : SortKey) : Stored :=
    match k.source with
    | .result i => (row[i]?).getD .null
    | .term _ => .null
  let keyed (env : Env) : Run (List Stored × List Stored) :=
    (plan.run env).bind fun row => .ofList [(row, keys.map (keyOf row))]
  { plan with
    run := fun env =>
      (sortedRun (keys.map (·.order)) (keyed env)).bind fun row => .ofList [row.1] }

/-- A bound as a whole number; none if it is no number. -/
def bound? (v : Stored) : Option Int :=
  match v.withAffinity .numeric with
  | .integer n => some n.toInt
  | _ => none

def boundOf (t : Option Term) (env : Env) : Eval (Option Int) := do
  match t with
  | none => pure none
  | some t =>
      match bound? (← t.eval env) with
      | some n => pure (some n)
      | none => Eval.fail "datatype mismatch"

def cut (limit offset : Option Int) (run : Run (List Stored)) : Run (List Stored) :=
  let rest := run.drop ((offset.getD 0).toNat)
  match limit with
  | some n => if n < 0 then rest else rest.take n.toNat
  | none => rest

def limited (limit offset : Option Term) (plan : QueryPlan) : QueryPlan :=
  if limit.isNone then plan
  else
    { plan with
      run := fun env =>
        (Run.ofEval (do
          let l ← boundOf limit env
          let o ← boundOf offset env
          pure (l, o))).bind fun (l, o) => cut l o (plan.run env) }

/-- Resolves the names of a query. -/
def resolve (r : Resolver) (scope : Scope) : Sql.Select → Planner QueryPlan
  | .mk common first others order limit offset => do
      let scope := { scope with common := common ++ scope.common }
      let outside := { scope with aggregates := .misused "misuse of aggregate function " }
      let limit ← Expression.optional r outside limit
      let offset ← Expression.optional r outside offset
      let plan ←
        match others with
        | [] => corePlan r outside order first
        | _ => do
            let (start, rest) ← compoundPlans r outside first others
            let plan := combineAll start rest
            let cores := first :: others.map (·.2)
            let keys ← (order.zipIdx 1).mapM fun (t, place) => compoundKey plan cores place t
            pure (if keys.isEmpty then plan else sortCompound keys plan)
      pure (limited limit offset plan)

end Query

namespace Resolver

def tooDeep : Planner α :=
  Planner.refuse "Expression tree is too large (maximum depth 1000)"

/-- The resolver to a depth of nesting. -/
def at_ : Nat → Resolver
  | 0 => ⟨fun _ _ => tooDeep, fun _ _ => tooDeep⟩
  | depth + 1 =>
      let inner := at_ depth
      ⟨Expression.resolve inner, Query.resolve inner⟩

/-- How deep an expression may be. -/
def maxDepth : Nat := 1000

def standard : Resolver := at_ maxDepth

end Resolver

end SqlUnits
