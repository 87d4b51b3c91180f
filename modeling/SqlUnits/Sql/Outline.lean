import SqlUnits.Sql.Dialect
import SqlUnits.Sql.Statement
import SqlUnits.Text.Blank
/-!
The outline of statements in the SQL that databases share: enough of the grammar to tell what a
statement is, not what it means. Forms of other databases count, forms of one database alone do
not.
-/

namespace SqlUnits

/-- What a statement is to a check. -/
inductive StatementKind where
  /-- Returns rows. -/
  | query
  /-- Changes the contents of tables. -/
  | mutation
  /-- Changes the schema. -/
  | ddl
  /-- Calls a procedure. -/
  | call
  /-- A procedural block. -/
  | block
  | other
deriving DecidableEq

namespace StatementKind

def name : StatementKind → String
  | query => "Query"
  | mutation => "Mutation"
  | ddl => "Ddl"
  | call => "Call"
  | block => "Block"
  | other => "Other"

/-- Only queries run while a unit is checked. -/
def isSideEffecting (kind : StatementKind) : Bool :=
  kind != query

/-- Whether a database is not even asked about the statement. -/
def isSkipped : StatementKind → Bool
  | ddl => true
  | call => true
  | block => true
  | _ => false

/-- What the first word of a statement tells. -/
def ofWord (word : String) : StatementKind :=
  if ["SELECT", "WITH", "VALUES", "PRAGMA", "EXPLAIN"].contains word then query
  else if ["INSERT", "UPDATE", "DELETE", "REPLACE", "MERGE", "UPSERT"].contains word then mutation
  else if ["CREATE", "ALTER", "DROP", "TRUNCATE"].contains word then ddl
  else if ["CALL", "EXEC", "EXECUTE"].contains word then call
  else if ["BEGIN", "DECLARE"].contains word then block
  else other

end StatementKind

namespace Sql

namespace Outline

open Sql.Parser

/-- Leaves out the size of a type, if one follows. -/
def withoutSize (tokens : List Token) : List Token :=
  match tokens with
  | t :: rest => if t.key == "(" then (rest.dropWhile (·.key != ")")).drop 1 else tokens
  | [] => []

def isColon (t : Token) : Bool :=
  t.kind == .illegal && t.text == [':']

/-- A cast behind an operand reads like a collation: both are a word and a name. -/
def castTokens (mark type : Token) (name : Text) : List Token :=
  [{ mark with kind := .word, key := "COLLATE" },
    { type with kind := .word, text := name, key := "TYPE" }]

/-- Makes tokens of different databases alike: casts, schemas in front of `table.*`, variables. -/
def simplifyFrom : Nat → List Token → List Token
  | 0, tokens => tokens
  | _, [] => []
  | fuel + 1, t :: rest =>
      let kept : List Token :=
        (if t.kind = .variable then { t with key := "1" } else t) :: simplifyFrom fuel rest
      match rest with
      | a :: more =>
          if isColon t && a.kind == .variable then
            castTokens t a (a.text.drop 1) ++ simplifyFrom fuel (withoutSize more)
          else if isColon t && isColon a then
            match more with
            | b :: more => castTokens t b b.text ++ simplifyFrom fuel (withoutSize more)
            | [] => kept
          else
            match more with
            | b :: c :: d :: _ =>
                if a.key == "." && c.key == "." && d.key == "*" then
                  simplifyFrom fuel (b :: more.drop 1)
                else kept
            | _ => kept
      | [] => kept

def tokens (text : Text) : List Token :=
  let tokens := Token.ofText text
  simplifyFrom tokens.length tokens

/-- A name where any word will do. -/
def anyName : Parser Unit := do
  let t ← advance
  match t.kind with
  | .word => pure ()
  | .quotedName => pure ()
  | .string => pure ()
  | _ => unexpected

def dottedName : Parser Unit := do
  anyName
  let more : Parser (Option Unit) := do
    if ← sign? "." then some <$> anyName else pure none
  let _ ← repeated more

/-- The arguments between parentheses, if they are there. -/
def arguments (r : Rules) : Parser Unit := do
  if ← sign? "(" then
    if !(← atSign ")") then
      let _ ← list (r.expr 0)
    sign ")"

def skipWord (w : String) : Parser Unit := do
  let _ ← word? w

def skipWords (ws : List String) : Parser Unit :=
  ws.forM skipWord

def atEnd : Parser Bool := do
  pure ((← peek).kind == .finish || (← atSign ";"))

/-- Passes over the rest of a statement. -/
def skipRest : Parser Unit := fun tokens =>
  .ok ((), tokens.dropWhile fun t => t.kind != .finish && !(t.kind == .sign && t.key == ";"))

/-- A query whose parts may stand between parentheses, down to a depth. -/
def query (r : Rules) : Nat → Parser Unit
  | 0 => unexpected
  | depth + 1 => do
      let part : Parser Unit := do
        if ← sign? "(" then
          query r depth
          sign ")"
        else if ← (do pure ((← atWord "INSERT") || (← atWord "UPDATE"))) then
          let _ ← Command.withCommon r
        else
          let _ ← Query.core r
      let _ ← Query.withClause r
      part
      let more : Parser (Option Unit) := do
        match ← Query.setOperator? with
        | some _ => some <$> part
        | none => pure none
      let _ ← repeated more
      let _ ← Query.orderClause r
      let _ ← Query.limitClause r

def pragmaValue : Parser Unit := do
  let t ← advance
  if t.kind = .number || t.kind = .string || t.kind = .variable then pure () else unexpected

def pragma : Parser StatementKind := do
  dottedName
  if ← sign? "=" then pragmaValue
  else if ← atSign "(" then parenthesised pragmaValue
  pure .query

/-- Runs a prepared statement, whatever that is. -/
def execute (r : Rules) : Parser StatementKind := do
  dottedName
  if ← atSign "(" then arguments r
  else if !((← atEnd) || (← atWord "USING")) then
    let _ ← list (r.expr 0)
  let _ ← after? "USING" (list (r.expr 0))
  pure .other

def call (r : Rules) : Parser StatementKind := do
  dottedName
  arguments r
  pure .call

def truncate : Parser StatementKind := do
  skipWords ["TABLE", "ONLY"]
  let _ ← list dottedName
  pure .ddl

def ifNotExists : Parser Unit := do
  if ← word? "IF" then
    word "NOT"
    word "EXISTS"

def ifExists : Parser Unit := do
  if ← word? "IF" then word "EXISTS"

/-- The time, the events and the table of a trigger, and the function that it calls. -/
def triggerRest : Parser Unit := do
  dottedName
  let event : Parser (Option Unit) := do
    if (← atEnd) || (← atWord "ON") || (← atWord "BEGIN") then pure none
    else
      let _ ← advance
      pure (some ())
  let _ ← repeated event
  word "ON"
  dottedName
  word "FOR"
  skipWord "EACH"
  if !(← word? "ROW") then word "STATEMENT"
  word "EXECUTE"
  if !(← word? "FUNCTION") then word "PROCEDURE"
  dottedName
  skipRest

/-- Routines, which some databases may replace. -/
def createRoutine (dialect : SqlDialect) : Parser StatementKind := do
  if dialect = .sqlite then unexpected
  else if ← word? "FUNCTION" then
    dottedName
    sign "("
    skipRest
    pure .other
  else
    skipWord "CONSTRAINT"
    word "TRIGGER"
    triggerRest
    pure .other

/-- Objects that are no tables, indexes or views. -/
def createObject : Parser StatementKind := do
  let t ← advance
  match t.key with
  | "SCHEMA" =>
      ifNotExists
      if !(← atWord "AUTHORIZATION") then dottedName
      let _ ← after? "AUTHORIZATION" anyName
  | "DATABASE" =>
      ifNotExists
      dottedName
  | "ROLE" =>
      ifNotExists
      let _ ← list dottedName
      skipWord "WITH"
  | "SEQUENCE" =>
      ifNotExists
      dottedName
      skipRest
  | "VIRTUAL" =>
      word "TABLE"
      ifNotExists
      dottedName
      word "USING"
      anyName
      if ← atSign "(" then
        let _ ← nameList
  | "TYPE" =>
      dottedName
      word "AS"
      skipWord "ENUM"
      sign "("
      skipRest
  | "EXTENSION" =>
      ifNotExists
      anyName
      skipWord "WITH"
      let _ ← after? "SCHEMA" anyName
      let _ ← after? "VERSION" anyName
      skipWord "CASCADE"
  | "POLICY" =>
      anyName
      word "ON"
      dottedName
      skipRest
  | _ => unexpected
  pure .other

def create (dialect : SqlDialect) (r : Rules) : Parser StatementKind := do
  let replacing ← word? "OR"
  if replacing then word "REPLACE"
  let ordinary : Parser StatementKind := do
    let _ ← Command.create r
    pure .ddl
  tryCatch ordinary fun _ => do
    skipWords ["LOCAL", "GLOBAL", "TRANSIENT", "TEMP", "TEMPORARY"]
    let routine := createRoutine dialect
    if replacing then routine else tryCatch routine fun _ => createObject

/-- Objects that count as parts of the schema when they are dropped. -/
def droppable : List String :=
  ["TABLE", "VIEW", "INDEX", "SCHEMA", "DATABASE", "ROLE", "SEQUENCE", "TYPE", "STAGE"]

def drop (dialect : SqlDialect) (r : Rules) : Parser StatementKind := do
  let t ← advance
  ifExists
  if droppable.contains t.key then
    let _ ← list dottedName
    skipWords ["CASCADE", "RESTRICT", "PURGE"]
    pure .ddl
  else if t.key = "FUNCTION" || t.key = "PROCEDURE" then
    let _ ← list (do
      dottedName
      arguments r)
    skipWords ["CASCADE", "RESTRICT"]
    pure .other
  else if t.key = "POLICY" || (t.key = "TRIGGER" && dialect != .sqlite) then
    anyName
    word "ON"
    dottedName
    skipWords ["CASCADE", "RESTRICT"]
    pure .other
  else unexpected

def alter (dialect : SqlDialect) (r : Rules) : Parser StatementKind := do
  let t ← advance
  match t.key with
  | "TABLE" =>
      ifExists
      skipWord "ONLY"
      dottedName
      let change ← advance
      if ["ADD", "DROP", "RENAME", "ALTER"].contains change.key then
        skipRest
        pure .ddl
      else unexpected
  | "INDEX" =>
      dottedName
      word "RENAME"
      word "TO"
      dottedName
      pure .other
  | "VIEW" =>
      dottedName
      if ← atSign "(" then
        let _ ← nameList
      word "AS"
      query r (← countTokens)
      pure .other
  | "POLICY" =>
      anyName
      word "ON"
      dottedName
      skipRest
      pure .other
  | "ROLE" =>
      if dialect ≠ .postgres then unexpected
      else
        anyName
        if ← atEnd then unexpected
        skipRest
        pure .other
  | _ => unexpected

/-- A statement that is not explained, by its first word. -/
def plain (dialect : SqlDialect) (r : Rules) : Parser StatementKind := do
  let t ← peek
  let behind (p : Parser StatementKind) : Parser StatementKind := do
    let _ ← advance
    p
  let change : Parser StatementKind := do
    let _ ← Command.withCommon r
    pure .mutation
  if t.kind ≠ .word && t.key ≠ "(" then unexpected
  else
    match t.key with
    | "EXECUTE" => behind (execute r)
    | "EXEC" => behind (execute r)
    | "CALL" => behind (call r)
    | "TRUNCATE" => behind truncate
    | "CREATE" => behind (create dialect r)
    | "DROP" => behind (drop dialect r)
    | "ALTER" => behind (alter dialect r)
    | "PRAGMA" => behind pragma
    | "INSERT" => change
    | "UPDATE" => change
    | "DELETE" => change
    | "REPLACE" => if dialect = .ansi then change else unexpected
    | key =>
        if ["(", "SELECT", "VALUES", "WITH"].contains key then
          query r (← countTokens)
          pure .query
        else
          let _ ← Command.command r
          pure .other

/-- What is explained is a statement or else a table. -/
def explained (dialect : SqlDialect) (r : Rules) : Parser StatementKind := do
  if ← word? "QUERY" then word "PLAN" else skipWords ["ANALYZE", "VERBOSE"]
  let statement : Parser StatementKind := do
    let _ ← plain dialect r
    pure .query
  tryCatch statement fun _ => do
    skipWords ["EXTENDED", "FORMATTED"]
    dottedName
    pure .other

def statement (dialect : SqlDialect) (r : Rules) : Parser StatementKind := do
  if ["EXPLAIN", "DESCRIBE", "DESC"].contains (← peek).key then
    let _ ← advance
    explained dialect r
  else plain dialect r

/-- The next statement of a text, with a semicolon or the end behind it. -/
def nextStatement (dialect : SqlDialect) (r : Rules) : Parser (Option StatementKind) := do
  let _ ← repeated (do pure (if ← sign? ";" then some () else none))
  if (← peek).kind == .finish then pure none
  else
    let kind ← statement dialect r
    if ← atEnd then pure (some kind) else unexpected

/-- The kinds of the statements of a text, if all of them can be read. -/
def kinds? (dialect : SqlDialect) (text : Text) : Option (List StatementKind) :=
  let tokens := tokens text
  let rules := Rules.at (tokens.length + 1)
  match (repeated (nextStatement dialect rules)) tokens with
  | .ok (kinds, _) => some kinds
  | .error _ => none

end Outline

end Sql

namespace StatementKind

/-- What a text is by its first statement, or else by its first word. A text that opens with a
brace is a call escape, and the words that open a block always do. -/
def ofText (dialect : SqlDialect) (sql : String) : StatementKind :=
  let text := Text.trimStart sql.toList
  let byWord := ofWord (String.ofList ((text.takeWhile Text.isLetter).map Text.upper))
  if text.head? = some '\x7b' then call
  else if byWord = block then block
  else
    match Sql.Outline.kinds? dialect text with
    | some (kind :: _) => kind
    | some [] => other
    | none => byWord

end StatementKind

end SqlUnits
