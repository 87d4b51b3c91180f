import SqlUnits.Sql.Query
/-!
The grammar of statements. Of a text only its first statement is read, up to its semicolon.
-/

namespace SqlUnits.Sql

namespace Command

open Sql.Parser

def conflictWord? (t : Token) : Option Conflict :=
  if t.kind != .word then none
  else
    match t.key with
    | "ABORT" => some .abort
    | "ROLLBACK" => some .rollback
    | "FAIL" => some .fail
    | "IGNORE" => some .ignore
    | "REPLACE" => some .replace
    | _ => none

def conflict : Parser Conflict := do
  match conflictWord? (← peek) with
  | some c =>
      let _ ← advance
      pure c
  | none => unexpected

def orConflict : Parser Conflict := do
  if ← word? "OR" then conflict else pure .abort

def returning (r : Rules) : Parser (List ResultColumn) := do
  if ← word? "RETURNING" then list (Query.resultColumn r) else pure []

def assignment (r : Rules) : Parser Assignment := do
  let columns ← if ← atSign "(" then nameList else List.singleton <$> name
  if !(← sign? "=") then sign "=="
  .mk columns <$> r.expr 0

def indexedColumn (r : Rules) : Parser (String × Nat) := do
  let t ← peek
  let e ← r.expr 0
  if !(← word? "DESC") then
    let _ ← word? "ASC"
  let named : Expr → Option String
    | .column [n] _ _ => some n
    | .literal (.text n) => some n
    | .collate (.column [n] _ _) _ => some n
    | _ => none
  match named e with
  | some n => pure (n, t.offset)
  | none => refuse "expressions prohibited in PRIMARY KEY and UNIQUE constraints"

def indexedColumns (r : Rules) : Parser (List (String × Nat)) :=
  parenthesised (list (indexedColumn r))

def upsert? (r : Rules) : Parser (Option Upsert) := do
  if ← word? "ON" then
    word "CONFLICT"
    let columns ← if ← atSign "(" then indexedColumns r else pure []
    if !columns.isEmpty then
      let _ ← after? "WHERE" (r.expr 0)
    word "DO"
    if ← word? "NOTHING" then pure (some ⟨columns.map (·.1), .nothing⟩)
    else
      word "UPDATE"
      word "SET"
      let assignments ← list (assignment r)
      let condition ← after? "WHERE" (r.expr 0)
      pure (some ⟨columns.map (·.1), .update assignments condition⟩)
  else pure none

def insertRest (r : Rules) (common : List CommonTable) (c : Conflict) : Parser Change := do
  word "INTO"
  let table ← tableName
  let _ ← after? "AS" name
  let columns ← if ← atSign "(" then nameList else pure []
  if ← word? "DEFAULT" then
    word "VALUES"
    .insert common c table columns .defaults none <$> returning r
  else
    let query ← r.select
    let upsert ← upsert? r
    .insert common c table columns (.query query) upsert <$> returning r

def tableAlias : Parser (Option String) :=
  after? "AS" name

def indexHint : Parser Unit := do
  if ← word? "INDEXED" then
    word "BY"
    let _ ← name
  else if (← atWord "NOT") && (← secondKey) == "INDEXED" then
    let _ ← advance
    let _ ← advance

def updateRest (r : Rules) (common : List CommonTable) : Parser Change := do
  let c ← orConflict
  let table ← tableName
  let asName ← tableAlias
  indexHint
  word "SET"
  let assignments ← list (assignment r)
  let sources ← Query.fromClause r
  let condition ← after? "WHERE" (r.expr 0)
  .update common c table asName assignments sources condition <$> returning r

def deleteRest (r : Rules) (common : List CommonTable) : Parser Change := do
  word "FROM"
  let table ← tableName
  let asName ← tableAlias
  indexHint
  let condition ← after? "WHERE" (r.expr 0)
  .delete common table asName condition <$> returning r

/-- A query or a change, behind its common tables. -/
def withCommon (r : Rules) : Parser Statement := do
  let common ← Query.withClause r
  let t ← peek
  if t.kind != .word then unexpected
  else
    match t.key with
    | "INSERT" =>
        let _ ← advance
        let c ← orConflict
        .change <$> insertRest r common c
    | "REPLACE" =>
        let _ ← advance
        .change <$> insertRest r common .replace
    | "UPDATE" =>
        let _ ← advance
        .change <$> updateRest r common
    | "DELETE" =>
        let _ ← advance
        .change <$> deleteRest r common
    | _ => .query <$> Query.body r common

def conflictClause : Parser Conflict := do
  if ← word? "ON" then
    word "CONFLICT"
    conflict
  else pure .abort

/-- What follows the parent of a foreign key; only its names matter. -/
def referenceActions : Parser Unit := do
  let action : Parser (Option Unit) := do
    if ← word? "ON" then
      if !(← word? "DELETE") then
        if !(← word? "UPDATE") then word "INSERT"
      if ← word? "SET" then
        if !(← word? "NULL") then word "DEFAULT"
      else if ← word? "NO" then word "ACTION"
      else if !(← word? "CASCADE") then word "RESTRICT"
      pure (some ())
    else if ← word? "MATCH" then
      let _ ← name
      pure (some ())
    else pure none
  let _ ← repeated action
  if (← atWord "NOT") && (← secondKey) == "DEFERRABLE" then
    let _ ← advance
  if ← word? "DEFERRABLE" then
    if ← word? "INITIALLY" then
      if !(← word? "DEFERRED") then word "IMMEDIATE"

def reference (r : Rules) : Parser (String × List String) := do
  let table ← name
  let columns ← if ← atSign "(" then indexedColumns r else pure []
  referenceActions
  pure (table, columns.map (·.1))

def defaultValue (r : Rules) : Parser Expr := do
  let t ← peek
  match t.kind with
  | .word =>
      match Token.name? t with
      | some n =>
          if (Expression.momentCall? t.key).isSome then Expression.operand r
          else
            let _ ← advance
            match t.key with
            | "TRUE" => pure (.literal (.integer 1))
            | "FALSE" => pure (.literal (.integer 0))
            | _ => pure (.literal (.text n))
      | none => Expression.operand r
  | .sign => if t.key == "(" then parenthesised (r.expr 0) else Expression.operand r
  | _ => Expression.operand r

/-- A parenthesised condition, with its text. -/
def checkRule (r : Rules) : Parser (Expr × String) := do
  sign "("
  let first ← peek
  let e ← r.expr 0
  let text := sourceBetween first (← peek)
  sign ")"
  pure (e, text)

def columnRule? (r : Rules) : Parser (Option ColumnRule) := do
  let _ ← after? "CONSTRAINT" name
  let t ← peek
  if t.kind != .word then pure none
  else
    match t.key with
    | "PRIMARY" =>
        let _ ← advance
        word "KEY"
        let descending ← word? "DESC"
        if !descending then
          let _ ← word? "ASC"
        let _ ← conflictClause
        let auto ← word? "AUTOINCREMENT"
        pure (some (.primaryKey descending auto))
    | "NOT" =>
        let _ ← advance
        word "NULL"
        some <$> .notNull <$> conflictClause
    | "NULL" =>
        let _ ← advance
        let _ ← conflictClause
        pure (some (.collate "BINARY"))
    | "UNIQUE" =>
        let _ ← advance
        let _ ← conflictClause
        pure (some .unique)
    | "DEFAULT" =>
        let _ ← advance
        some <$> .default <$> defaultValue r
    | "CHECK" =>
        let _ ← advance
        let (e, text) ← checkRule r
        pure (some (.check e text))
    | "REFERENCES" =>
        let _ ← advance
        let (table, columns) ← reference r
        pure (some (.references table columns))
    | "COLLATE" =>
        let _ ← advance
        some <$> .collate <$> name
    | _ => pure none

def columnDef (r : Rules) : Parser ColumnDef := do
  let n ← name
  let type ← Expression.typeText
  .mk n type <$> repeated (columnRule? r)

def tableRule (r : Rules) : Parser TableRule := do
  let _ ← after? "CONSTRAINT" name
  if ← word? "PRIMARY" then
    word "KEY"
    let columns ← indexedColumns r
    let _ ← conflictClause
    pure (.primaryKey columns)
  else if ← word? "UNIQUE" then
    let columns ← indexedColumns r
    let _ ← conflictClause
    pure (.unique columns)
  else if ← word? "CHECK" then
    let (e, text) ← checkRule r
    let _ ← conflictClause
    pure (.check e text)
  else
    word "FOREIGN"
    word "KEY"
    let columns ← nameList
    word "REFERENCES"
    let (table, parents) ← reference r
    pure (.foreignKey columns table parents)

def atTableRule : Parser Bool := do
  pure (["CONSTRAINT", "PRIMARY", "UNIQUE", "CHECK", "FOREIGN"].contains (← peek).key)

def columnDefs (r : Rules) : Nat → Parser (List ColumnDef)
  | 0 => pure []
  | fuel + 1 => do
      let c ← columnDef r
      if ← sign? "," then
        if ← atTableRule then pure [c]
        else
          let rest ← columnDefs r fuel
          pure (c :: rest)
      else pure [c]

def tableRuleTail (r : Rules) : Parser (Option TableRule) := do
  let comma ← sign? ","
  if comma || (← atTableRule) then some <$> tableRule r else pure none

/-- The rules that follow the columns. -/
def tableRules (r : Rules) : Parser (List TableRule) := do
  repeated (tableRuleTail r)

/-- One of the words that may stand behind the columns. Only where the statement could go on is
another word an option that is not known. -/
def optionNamed (known : String) : Parser Unit := do
  match ← taken? Query.writtenName? with
  | none => unexpected
  | some n =>
      let goesOn := (← atSign ",") || (← atSign ";") || (← peek).kind == .finish
      if Text.sameLetters n known then pure ()
      else if goesOn then refuse ("unknown table option: " ++ n)
      else unexpected

/-- What follows the columns; true when the table has no row numbers of its own. -/
def tableOption : Parser Bool := do
  if ← word? "WITHOUT" then
    optionNamed "rowid"
    pure true
  else
    optionNamed "strict"
    pure false

/-- Options with commas between them; the first one may be missing. -/
def tableOptions : Parser Bool := do
  let first ← if (Token.name? (← peek)).isSome then tableOption else pure false
  let rest ← repeated (do if ← sign? "," then some <$> tableOption else pure none)
  pure (first || rest.any id)

def ifNotExists : Parser Bool := do
  if (← atWord "IF") && (← secondKey) == "NOT" then
    let _ ← advance
    let _ ← advance
    word "EXISTS"
    pure true
  else pure false

def ifExists : Parser Bool := do
  if (← atWord "IF") && (← secondKey) == "EXISTS" then
    let _ ← advance
    let _ ← advance
    pure true
  else pure false

def createTable (r : Rules) : Parser SchemaChange := do
  let lenient ← ifNotExists
  let first ← peek
  let table ← tableName
  if ← word? "AS" then
    let q ← r.select
    pure (.createTableAs lenient table first.offset q (sourceBetween first (← peek)))
  else
    sign "("
    let columns ← columnDefs r (← countTokens)
    let rules ← tableRules r
    sign ")"
    let withoutRowid ← tableOptions
    let text := sourceBetween first (← peek)
    pure (.createTable lenient table first.offset columns rules withoutRowid text)

def createView (r : Rules) : Parser SchemaChange := do
  let lenient ← ifNotExists
  let first ← peek
  let view ← tableName
  let columns ← if ← atSign "(" then nameList else pure []
  word "AS"
  let q ← r.select
  pure (.createView lenient view first.offset columns q (sourceBetween first (← peek)))

def createIndex (r : Rules) (unique : Bool) : Parser SchemaChange := do
  let lenient ← ifNotExists
  let first ← peek
  let index ← tableName
  word "ON"
  let table ← name
  let columns ← indexedColumns r
  let _ ← after? "WHERE" (r.expr 0)
  pure (.createIndex unique lenient index table columns (sourceBetween first (← peek)))

def create (r : Rules) : Parser SchemaChange := do
  let temporary ← (do pure ((← word? "TEMP") || (← word? "TEMPORARY")))
  if ← word? "TABLE" then createTable r
  else if ← word? "VIEW" then createView r
  else if temporary then unexpected
  else if ← word? "INDEX" then createIndex r false
  else
    word "UNIQUE"
    word "INDEX"
    createIndex r true

def drop : Parser SchemaChange := do
  if ← word? "TABLE" then
    let lenient ← ifExists
    .dropTable lenient <$> tableName
  else if ← word? "VIEW" then
    let lenient ← ifExists
    .dropView lenient <$> tableName
  else
    word "INDEX"
    let lenient ← ifExists
    .dropIndex lenient <$> tableName

def alter (r : Rules) : Parser SchemaChange := do
  word "TABLE"
  let table ← tableName
  if ← word? "ADD" then
    let _ ← word? "COLUMN"
    .addColumn table <$> columnDef r
  else
    word "RENAME"
    word "TO"
    .renameTable table <$> name

def transactionTail : Parser Unit := do
  if ← word? "TRANSACTION" then
    let _ ← taken? Token.name?

def savepointName : Parser String := do
  let _ ← word? "SAVEPOINT"
  name

def transaction (key : String) : Parser TransactionStep := do
  match key with
  | "BEGIN" =>
      if !(← word? "DEFERRED") then
        if !(← word? "IMMEDIATE") then
          let _ ← word? "EXCLUSIVE"
      transactionTail
      pure .begin
  | "SAVEPOINT" => .savepoint <$> name
  | "RELEASE" => .release <$> savepointName
  | "ROLLBACK" =>
      transactionTail
      if ← word? "TO" then .rollbackTo <$> savepointName else pure .rollback
  | _ =>
      transactionTail
      pure .commit

def pragmaValue : Parser String := do
  let negative ← sign? "-"
  let t ← peek
  match Token.name? t with
  | some n =>
      let _ ← advance
      pure n
  | none =>
      if t.kind == .number || t.key == "ON" || t.key == "DELETE" || t.key == "DEFAULT" then
        let _ ← advance
        pure ((if negative then "-" else "") ++ String.ofList t.text)
      else unexpected

def pragma : Parser Statement := do
  let n ← tableName
  if ← sign? "=" then .pragma n.name <$> some <$> pragmaValue
  else if ← atSign "(" then .pragma n.name <$> some <$> parenthesised pragmaValue
  else pure (.pragma n.name none)

def command (r : Rules) : Parser Statement := do
  let t ← peek
  if t.kind != .word then unexpected
  else
    match t.key with
    | "CREATE" =>
        let _ ← advance
        .schema <$> create r
    | "DROP" =>
        let _ ← advance
        .schema <$> drop
    | "ALTER" =>
        let _ ← advance
        .schema <$> alter r
    | "PRAGMA" =>
        let _ ← advance
        pragma
    | "ANALYZE" =>
        let _ ← advance
        let _ ← taken? Token.name?
        pure .maintenance
    | "VACUUM" =>
        let _ ← advance
        let _ ← taken? Token.name?
        pure .maintenance
    | "REINDEX" =>
        let _ ← advance
        let _ ← taken? Token.name?
        pure .maintenance
    | key =>
        if ["BEGIN", "COMMIT", "END", "ROLLBACK", "SAVEPOINT", "RELEASE"].contains key then
          let _ ← advance
          .transaction <$> transaction key
        else withCommon r

def explain : Parser (Option Explain) := do
  if ← word? "EXPLAIN" then
    if (← atWord "QUERY") && (← secondKey) == "PLAN" then
      let _ ← advance
      let _ ← advance
      pure (some .plan)
    else pure (some .program)
  else pure none

/-- A statement up to its semicolon; the end of the text will do for one. -/
def explained (r : Rules) : Parser (Option Explain × Statement) := do
  let e ← explain
  let s ← command r
  if (← peek).kind == .finish || (← atSign ";") then pure (e, s) else unexpected

end Command

/-- The greatest number of a variable. -/
def maxVariable : Nat := 32766

/-- Numbers the variables of a statement from left to right, each by its kind: a question mark
takes the next number, one with digits the number they say, a name the number it has or the next.
A number out of range becomes zero. The second part of the answer is the greatest number. -/
def numberVariables (names : List (String × Nat)) (last : Nat) :
    List Token → List Token × Nat
  | [] => ([], last)
  | t :: rest =>
      if t.kind = .sign && t.key = ";" then (t :: rest, last)
      else if t.kind != .variable then
        let (tokens, n) := numberVariables names last rest
        (t :: tokens, n)
      else
        let (index, names) :=
          match t.text with
          | ['?'] => (last + 1, names)
          | '?' :: digits =>
              let n := Text.natOfDigits digits
              (if n > maxVariable then 0 else n, names)
          | _ =>
              match names.lookup t.key with
              | some n => (n, names)
              | none => (last + 1, (t.key, last + 1) :: names)
        let (tokens, n) := numberVariables names (max last index) rest
        ({ t with key := toString index } :: tokens, n)

/-- The first statement of a text. -/
structure Parsed where
  explain : Option Explain
  statement : Statement
  paramCount : Nat
  /-- What follows its semicolon. -/
  rest : Text

def dropSemicolons (tokens : List Token) : List Token :=
  tokens.dropWhile fun t => t.kind == .sign && t.key == ";"

/-- Reads the first statement of a text; `none` when there is none. -/
def Parsed.ofText (text : Text) : Except Problem (Option Parsed) := do
  let tokens := dropSemicolons (Token.ofText text)
  match tokens with
  | [] => pure none
  | t :: _ =>
      if t.kind = .finish then pure none
      else
        let (tokens, paramCount) := numberVariables [] 0 tokens
        let rules := Rules.at (tokens.length + 1)
        let ((explain, statement), rest) ← Command.explained rules tokens
        let rest := (rest.head?.map fun t => t.source.drop 1).getD []
        pure (some ⟨explain, statement, paramCount, rest⟩)

end SqlUnits.Sql
