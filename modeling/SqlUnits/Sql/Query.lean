import SqlUnits.Sql.Expression
/-!
The grammar of queries: common tables, cores joined by set operators, order, limit.
-/

namespace SqlUnits.Sql

namespace Query

open Sql.Parser

/-- The alias of a table or a column; without `AS` it cannot be a word about joins. -/
def asName? : Parser (Option String) := do
  if ← word? "AS" then some <$> name else taken? Token.label?

def resultColumn (r : Rules) : Parser ResultColumn := do
  let first ← peek
  if ← sign? "*" then pure .all
  else
    let dotted ← (fun tokens =>
      match tokens with
      | t :: dot :: star :: _ =>
          .ok (if dot.key == "." && star.key == "*" then Token.name? t else none, tokens)
      | _ => .ok (none, tokens) : Parser (Option String))
    match dotted with
    | some table =>
        let _ ← advance
        let _ ← advance
        let _ ← advance
        pure (.allOf table)
    | none =>
        let e ← r.expr 0
        let text := sourceBetween first (← peek)
        let asName ← asName?
        pure (.expr e asName text)

/-- The words that may stand before `JOIN`. -/
def joinKind (words : List String) : Option JoinKind :=
  let has (w : String) : Bool := words.contains w
  let both := has "FULL"
  if words.any fun w => !(joinWords.contains w) then none
  else if has "INNER" && (has "OUTER" || has "LEFT" || has "RIGHT" || both) then none
  else if has "OUTER" && !(has "LEFT" || has "RIGHT" || both) then none
  else if has "CROSS" && (has "LEFT" || has "RIGHT" || both || has "OUTER") then none
  else
    some { natural := has "NATURAL", left := has "LEFT" || both, right := has "RIGHT" || both }

def joinWord? (t : Token) : Option String :=
  if t.kind == .word && joinWords.contains t.key && t.key != "INDEXED" then some t.key else none

/-- A name as it is written. -/
def writtenName? (t : Token) : Option String :=
  if (Token.name? t).isSome then some (String.ofList t.text) else none

/-- A comma, or `JOIN` behind up to three words that say how. -/
def joinOperator? : Parser (Option JoinKind) := do
  if ← sign? "," then pure (some { comma := true })
  else if ← word? "JOIN" then pure (some {})
  else
    let first ← peek
    match joinWord? first with
    | none => pure none
    | some _ =>
        let _ ← advance
        let more ← many (taken? writtenName?) 2
        word "JOIN"
        let words := String.ofList first.text :: more
        match joinKind (words.map Text.upperString) with
        | some kind => pure (some kind)
        | none =>
            let next ← peek
            if !(← atSign "(") && (Token.name? next).isNone then unexpected
            refuse ("unknown join type: " ++ String.intercalate " " words) (some first.offset)

/-- A source between parentheses is a query, or sources of its own. -/
def source (r : Rules) (group : Parser (List Joined)) : Parser Source := do
  if ← sign? "(" then
    if (← atWord "SELECT") || (← atWord "VALUES") || (← atWord "WITH") then
      let q ← r.select
      sign ")"
      .query q <$> asName?
    else
      let sources ← group
      sign ")"
      let _ ← asName?
      pure (.group sources)
  else
    let table ← tableName
    if ← sign? "(" then
      let args ← if ← atSign ")" then pure [] else list (r.expr 0)
      sign ")"
      .call table.name args <$> asName?
    else
      let asName ← asName?
      if ← word? "INDEXED" then
        word "BY"
        let _ ← name
      else if (← atWord "NOT") && (← secondKey) == "INDEXED" then
        let _ ← advance
        let _ ← advance
      pure (.table table asName)

def joined (r : Rules) (group : Parser (List Joined)) (kind : JoinKind) : Parser Joined := do
  let s ← source r group
  if ← word? "ON" then
    let e ← r.expr 0
    pure (.mk kind s (some e) [])
  else if ← word? "USING" then .mk kind s none <$> nameList
  else pure (.mk kind s none [])

def joinTail (r : Rules) (group : Parser (List Joined)) : Parser (Option Joined) := do
  match ← joinOperator? with
  | some kind => some <$> joined r group kind
  | none => pure none

/-- Before the first source there is nothing to join it with. -/
def unconditional : Joined → Parser Unit
  | .mk _ _ (some _) _ => refuse "a JOIN clause is required before ON"
  | .mk _ _ none (_ :: _) => refuse "a JOIN clause is required before USING"
  | .mk _ _ none [] => pure ()

/-- Sources to a depth of parentheses. -/
def sources (r : Rules) : Nat → Parser (List Joined)
  | 0 => unexpected
  | depth + 1 => do
      let group := sources r depth
      let first ← joined r group {}
      unconditional first
      let rest ← repeated (joinTail r group)
      pure (first :: rest)

def fromClause (r : Rules) : Parser (List Joined) := do
  if ← word? "FROM" then
    let n ← countTokens
    sources r n
  else pure []

def valueRow (r : Rules) : Parser (List Expr) :=
  parenthesised (list (r.expr 0))

def core (r : Rules) : Parser Core := do
  if ← word? "VALUES" then .values <$> list (valueRow r)
  else
    word "SELECT"
    let distinct ← word? "DISTINCT"
    if !distinct then
      let _ ← word? "ALL"
    let columns ← list (resultColumn r)
    let from_ ← fromClause r
    let condition ← after? "WHERE" (r.expr 0)
    let groups ←
      if ← word? "GROUP" then do
        word "BY"
        list (r.expr 0)
      else pure []
    let having ← after? "HAVING" (r.expr 0)
    pure (.select distinct columns from_ condition groups having)

def setOperator? : Parser (Option SetOp) := do
  if ← word? "UNION" then pure (some (if ← word? "ALL" then .unionAll else .union))
  else if ← word? "INTERSECT" then pure (some .intersect)
  else if ← word? "EXCEPT" then pure (some .except)
  else pure none

def orderTerm (r : Rules) : Parser OrderTerm := do
  let e ← r.expr 0
  let descending ← word? "DESC"
  if !descending then
    let _ ← word? "ASC"
  if ← word? "NULLS" then
    if ← word? "FIRST" then pure (.mk e descending (some true))
    else
      word "LAST"
      pure (.mk e descending (some false))
  else pure (.mk e descending none)

def orderClause (r : Rules) : Parser (List OrderTerm) := do
  if ← word? "ORDER" then
    word "BY"
    list (orderTerm r)
  else pure []

/-- A limit and an offset; with a comma the offset comes first. -/
def limitClause (r : Rules) : Parser (Option Expr × Option Expr) := do
  if ← word? "LIMIT" then
    let first ← r.expr 0
    if ← word? "OFFSET" then
      let second ← r.expr 0
      pure (some first, some second)
    else if ← sign? "," then
      let second ← r.expr 0
      pure (some second, some first)
    else pure (some first, none)
  else pure (none, none)

/-- A core with what may stand behind it: the order and the limit of the query. -/
structure OrderedCore where
  core : Core
  order : List OrderTerm := []
  limit : Option Expr := none
  offset : Option Expr := none

/-- A core of values has neither order nor limit. -/
def orderedCore (r : Rules) : Parser OrderedCore := do
  match ← core r with
  | .values rows => pure { core := .values rows }
  | c =>
      let order ← orderClause r
      let (limit, offset) ← limitClause r
      pure ⟨c, order, limit, offset⟩

def otherCore (r : Rules) : Parser (Option (SetOp × OrderedCore)) := do
  match ← setOperator? with
  | some op =>
      let c ← orderedCore r
      pure (some (op, c))
  | none => pure none

/-- The last of several cores, before which no other one may have an order or a limit. -/
def lastCore (first : OrderedCore) : List (SetOp × OrderedCore) → Parser OrderedCore
  | [] => pure first
  | (op, next) :: rest => do
      let last ← lastCore next rest
      let tooEarly (clause : String) : Parser OrderedCore :=
        refuse (clause ++ " clause should come after " ++ op.name ++ " not before")
      if !first.order.isEmpty then tooEarly "ORDER BY"
      else if first.limit.isSome then tooEarly "LIMIT"
      else pure last

def commonTable (r : Rules) : Parser CommonTable := do
  let n ← name
  let columns ← if ← atSign "(" then nameList else pure []
  word "AS"
  if ← word? "NOT" then word "MATERIALIZED"
  else
    let _ ← word? "MATERIALIZED"
  .mk n columns <$> parenthesised r.select

def withClause (r : Rules) : Parser (List CommonTable) := do
  if ← word? "WITH" then
    let _ ← word? "RECURSIVE"
    list (commonTable r)
  else pure []

/-- A query behind its common tables. -/
def body (r : Rules) (common : List CommonTable) : Parser Select := do
  let first ← orderedCore r
  let others ← repeated (otherCore r)
  let last ← lastCore first others
  let others := others.map fun (op, c) => (op, c.core)
  pure (.mk common first.core others last.order last.limit last.offset)

def select (r : Rules) : Parser Select := do
  body r (← withClause r)

end Query

/-- The grammar to a depth of nesting; each level takes at least one token. -/
def Rules.at : Nat → Rules
  | 0 => ⟨fun _ => Parser.unexpected, Parser.unexpected⟩
  | depth + 1 =>
      let inner := Rules.at depth
      ⟨Expression.atLevel inner, Query.select inner⟩

end SqlUnits.Sql
