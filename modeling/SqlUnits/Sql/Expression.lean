import SqlUnits.Number.Natural
import SqlUnits.Sql.Parser
import SqlUnits.Text.Hex
/-!
The grammar of expressions. Operators bind by level: `OR` least, then `AND`, `NOT`, the tests for
equality and membership, comparisons, bits, sums, products, concatenation, `COLLATE`, and signs.
-/

namespace SqlUnits.Sql

/-- What the grammar of a level refers to at the levels inside it. -/
structure Rules where
  /-- An expression whose operators all have at least a level. -/
  expr : Nat → Parser Expr
  select : Parser Select

namespace Expression

open Sql.Parser

/-- The operator of a sign, with its level. -/
def signOperator? : String → Option (BinaryOp × Nat)
  | "=" => some (.equal, 4)
  | "==" => some (.equal, 4)
  | "<>" => some (.notEqual, 4)
  | "!=" => some (.notEqual, 4)
  | "<" => some (.less, 5)
  | "<=" => some (.lessEqual, 5)
  | ">" => some (.greater, 5)
  | ">=" => some (.greaterEqual, 5)
  | "&" => some (.bitAnd, 7)
  | "|" => some (.bitOr, 7)
  | "<<" => some (.shiftLeft, 7)
  | ">>" => some (.shiftRight, 7)
  | "+" => some (.add, 8)
  | "-" => some (.subtract, 8)
  | "*" => some (.multiply, 9)
  | "/" => some (.divide, 9)
  | "%" => some (.remainder, 9)
  | "||" => some (.concat, 10)
  | _ => none

def matchWords : List String := ["LIKE", "GLOB", "REGEXP", "MATCH"]

/-- A whole number, unless it does not fit. -/
def integerLiteral (digits : Text) : Stored :=
  let n := Text.natOfDigits digits
  if n < twoPow 63 then .integer (Int64.ofNat n) else .real (Double.ofDecimal false n 0)

def numberLiteral (text : Text) : Stored :=
  let cs := text.filter (· ≠ '_')
  match cs with
  | '0' :: x :: hex =>
      if x == 'x' || x == 'X' then .integer (Int64.ofNat ((Hex.toNat? hex).getD 0))
      else if cs.all Text.isDigit then integerLiteral cs
      else .real ((Double.ofText? cs).getD Double.zero)
  | _ =>
      if cs.all Text.isDigit then integerLiteral cs
      else .real ((Double.ofText? cs).getD Double.zero)

/-- Digits that fit only with a minus sign in front of them. -/
def isLeastInteger (t : Token) : Bool :=
  t.kind == .number && t.text.all Text.isDigit && Text.natOfDigits t.text == twoPow 63

def blobLiteral (text : Text) : Stored :=
  .blob ((Hex.toBytes? ((text.drop 2).dropLast)).getD [])

/-- The sizes behind the name of a type. -/
def typeSize : Parser Unit := do
  if ← sign? "(" then
    let size : Parser Unit := do
      if !(← sign? "+") then
        let _ ← sign? "-"
      let t ← peek
      if t.kind == .number then
        let _ ← advance
      else unexpected
    size
    if ← sign? "," then size
    sign ")"

def typeNames : Parser (List String) :=
  repeated (taken? Token.label?)

/-- A type as it is written, or its first name if that is quoted; it may be missing. -/
def typeText : Parser String := do
  let first ← peek
  let names ← typeNames
  if names.isEmpty then pure ""
  else
    typeSize
    match names, first.kind with
    | name :: _, .quotedName => pure name
    | name :: _, .string => pure name
    | _, _ => pure (sourceBetween first (← peek))

def arguments (r : Rules) : Parser (Bool × Bool × List Expr) := do
  sign "("
  if ← sign? "*" then
    sign ")"
    pure (false, true, [])
  else if ← sign? ")" then pure (false, false, [])
  else
    let distinct ← word? "DISTINCT"
    if !distinct then
      let _ ← word? "ALL"
    let items ← if ← atSign ")" then pure [] else list (r.expr 0)
    sign ")"
    pure (distinct, false, items)

def call (r : Rules) (name : String) (offset : Nat) : Parser Expr := do
  let (distinct, star, items) ← arguments r
  let filter ←
    if (← atWord "FILTER") && (← secondKey) == "(" then do
      word "FILTER"
      some <$> parenthesised (do
        word "WHERE"
        r.expr 0)
    else pure none
  pure (.call name offset distinct star items filter)

/-- Names behind dots. -/
def qualified (first : Token) (part : String) : Parser Expr := do
  if ← sign? "." then
    let second ← name
    if ← sign? "." then
      let third ← name
      pure (.column [part, second, third] false first.offset)
    else pure (.column [part, second] false first.offset)
  else
    let quoted := first.text.head? == some '"'
    pure (.column [part] quoted first.offset)

def choice (r : Rules) : Parser Expr := do
  let operand ← if ← atWord "WHEN" then pure none else some <$> r.expr 0
  let branch : Parser (Option (Expr × Expr)) := do
    if ← word? "WHEN" then
      let test ← r.expr 0
      word "THEN"
      let result ← r.expr 0
      pure (some (test, result))
    else pure none
  let branches ← repeated branch
  if branches.isEmpty then unexpected
  let otherwise ← after? "ELSE" (r.expr 0)
  word "END"
  pure (.choice operand branches otherwise)

def castExpr (r : Rules) : Parser Expr :=
  parenthesised (do
    let e ← r.expr 0
    word "AS"
    let type ← typeText
    pure (.cast e (if type.isEmpty then "NUMERIC" else type)))

/-- What stands between parentheses: a query, an expression, or a row of them. -/
def grouped (r : Rules) : Parser Expr := do
  sign "("
  if (← atWord "SELECT") || (← atWord "VALUES") || (← atWord "WITH") then
    let q ← r.select
    sign ")"
    pure (.scalar q)
  else
    let items ← list (r.expr 0)
    sign ")"
    match items with
    | [e] => pure e
    | _ => pure (.row items)

def existsQuery (r : Rules) : Parser Expr := do
  word "EXISTS"
  .exists <$> parenthesised r.select

/-- The moment of a statement, as a text. -/
def momentCall? : String → Option String
  | "CURRENT_DATE" => some "date"
  | "CURRENT_TIME" => some "time"
  | "CURRENT_TIMESTAMP" => some "datetime"
  | _ => none

def wordOperand (r : Rules) (t : Token) : Parser Expr := do
  let next ← secondKey
  match t.key with
  | "NULL" =>
      let _ ← advance
      pure (.literal .null)
  | "CASE" =>
      let _ ← advance
      choice r
  | "EXISTS" => existsQuery r
  | "NOT" =>
      let _ ← advance
      .unary .not <$> r.expr 3
  | key =>
      if key == "CAST" then
        let _ ← advance
        castExpr r
      else
        match momentCall? key, Token.name? t with
        | some function, _ =>
            let _ ← advance
            pure (.call function t.offset false false [] none)
        | none, some part =>
            let _ ← advance
            if next == "(" then call r part t.offset else qualified t part
        | none, none => unexpected

/-- The index of a variable is set before the grammar sees it. -/
def variableIndex (t : Token) : Nat := (t.key.toNat?).getD 0

/-- A number sign with digits looks like a variable, but is none. -/
def isRegister (t : Token) : Bool :=
  match t.text with
  | '#' :: c :: _ => Text.isDigit c
  | _ => false

def operand (r : Rules) : Parser Expr := do
  let t ← peek
  match t.kind with
  | .word => wordOperand r t
  | .number =>
      let _ ← advance
      pure (.literal (numberLiteral t.text))
  | .string =>
      let _ ← advance
      let content := unquote t.text
      if ← atSign "." then qualified t content else pure (.literal (.text content))
  | .blob =>
      let _ ← advance
      pure (.literal (blobLiteral t.text))
  | .variable =>
      if isRegister t then unexpected
      let _ ← advance
      if variableIndex t = 0 then
        refuse "variable number must be between ?1 and ?32766" (some t.offset)
      else pure (.param (variableIndex t))
  | .quotedName =>
      let _ ← advance
      let part := unquote t.text
      if ← atSign "(" then call r part t.offset else qualified t part
  | .sign =>
      match t.key with
      | "(" => grouped r
      | "-" =>
          let _ ← advance
          if isLeastInteger (← peek) then
            let _ ← advance
            pure (.literal (.integer Int64.minValue))
          else .unary .negate <$> r.expr 12
      | "+" =>
          let _ ← advance
          .unary .plus <$> r.expr 12
      | "~" =>
          let _ ← advance
          .unary .bitNot <$> r.expr 12
      | _ => unexpected
  | _ => unexpected

/-- What an expression is a member of. -/
def membership (r : Rules) (negated : Bool) (e : Expr) : Parser Expr := do
  if ← sign? "(" then
    if (← atWord "SELECT") || (← atWord "VALUES") || (← atWord "WITH") then
      let q ← r.select
      sign ")"
      pure (.inQuery negated e q)
    else if ← sign? ")" then pure (.inList negated e [])
    else
      let items ← list (r.expr 0)
      sign ")"
      pure (.inList negated e items)
  else
    let table ← tableName
    let source := Joined.mk {} (.table table none) none []
    pure (.inQuery negated e
      (.mk [] (.select false [.all] [source] none [] none) [] [] none none))

def betweenRest (r : Rules) (negated : Bool) (e : Expr) : Parser Expr := do
  let low ← r.expr 4
  word "AND"
  let high ← r.expr 5
  pure (.between negated e low high)

def matchRest (r : Rules) (operator : Token) (negated : Bool) (e : Expr) : Parser Expr := do
  let pattern ← r.expr 5
  let escape ← after? "ESCAPE" (r.expr 7)
  pure (.matching (String.ofList operator.text) operator.offset negated e pattern escape)

/-- A test behind `NOT`. -/
def negatedTest (r : Rules) (e : Expr) : Parser Expr := do
  let t ← peek
  if t.kind != .word then unexpected
  else
    match t.key with
    | "NULL" =>
        let _ ← advance
        pure (.isNull true e)
    | "IN" =>
        let _ ← advance
        membership r true e
    | "BETWEEN" =>
        let _ ← advance
        betweenRest r true e
    | key =>
        if matchWords.contains key then
          let _ ← advance
          matchRest r t true e
        else unexpected

def identityTest (r : Rules) (e : Expr) : Parser Expr := do
  let negated ← word? "NOT"
  if (← atWord "DISTINCT") && (← secondKey) == "FROM" then
    let _ ← advance
    let _ ← advance
    let right ← r.expr 5
    pure (.binary (if negated then .is else .isNot) e right)
  else
    let right ← r.expr 5
    match negated, right with
    | false, .literal .null => pure (.isNull false e)
    | true, .literal .null => pure (.isNull true e)
    | _, _ => pure (.binary (if negated then .isNot else .is) e right)

/-- What a word makes of the expression before it; `none` if it does not continue one. -/
def wordOperator (r : Rules) (level : Nat) (e : Expr) (t : Token) : Parser (Option Expr) := do
  let take (at_ : Nat) (p : Parser Expr) : Parser (Option Expr) := do
    if level ≤ at_ then
      let _ ← advance
      some <$> p
    else pure none
  match t.key with
  | "OR" => take 1 (.binary .or e <$> r.expr 2)
  | "AND" => take 2 (.binary .and e <$> r.expr 3)
  | "IS" => take 4 (identityTest r e)
  | "IN" => take 4 (membership r false e)
  | "BETWEEN" => take 4 (betweenRest r false e)
  | "ISNULL" => take 4 (pure (.isNull false e))
  | "NOTNULL" => take 4 (pure (.isNull true e))
  | "NOT" => take 4 (negatedTest r e)
  | "COLLATE" =>
      take 11 (do
        match ← taken? Token.label? with
        | some name => pure (.collate e name)
        | none => unexpected)
  | key =>
      if matchWords.contains key then take 4 (matchRest r t false e) else pure none

def operators (r : Rules) (level : Nat) : Nat → Expr → Parser Expr
  | 0, e => pure e
  | fuel + 1, e => do
      let t ← peek
      let next ←
        match t.kind with
        | .word => wordOperator r level e t
        | .sign =>
            match signOperator? t.key with
            | some (op, at_) =>
                if level ≤ at_ then do
                  let _ ← advance
                  let right ← r.expr (at_ + 1)
                  pure (some (.binary op e right))
                else pure none
            | none => pure none
        | _ => pure none
      match next with
      | some e => operators r level fuel e
      | none => pure e

/-- An expression whose operators all have at least a level. -/
def atLevel (r : Rules) (level : Nat) : Parser Expr := do
  let first ← operand r
  operators r level (← countTokens) first

end Expression

end SqlUnits.Sql
