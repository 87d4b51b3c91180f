import SqlUnits.Sql.Syntax
import SqlUnits.Sql.Token
/-!
Reading tokens from left to right. A parser looks one token ahead and never goes back, so the
token at which it stops is the first one that no statement could have there.
-/

namespace SqlUnits.Sql

/-- Why a text is no statement; a fault in the text itself has a byte offset. -/
structure Problem where
  message : String
  offset : Option Nat := none
deriving DecidableEq

abbrev Parser := StateT (List Token) (Except Problem)

namespace Parser

def endToken : Token := ⟨.finish, [], "", 0, []⟩

def peek : Parser Token := fun tokens => .ok (tokens.headD endToken, tokens)

/-- The error at a token that cannot be where it is. -/
def errorAt (t : Token) : Problem :=
  match t.kind with
  | .finish => ⟨"incomplete input", none⟩
  | .illegal => ⟨"unrecognized token: \"" ++ String.ofList t.text ++ "\"", some t.offset⟩
  | _ => ⟨"near \"" ++ String.ofList t.text ++ "\": syntax error", some t.offset⟩

def unexpected : Parser α := do
  throw (errorAt (← peek))

def refuse (message : String) (offset : Option Nat := none) : Parser α :=
  throw ⟨message, offset⟩

/-- Takes the next token; the end stays where it is. -/
def advance : Parser Token := fun tokens =>
  match tokens with
  | [] => .ok (endToken, [])
  | t :: rest => .ok (t, if t.kind = .finish then [t] else rest)

/-- Whether the next token is a certain word. -/
def atWord (word : String) : Parser Bool := do
  let t ← peek
  pure (t.kind == .word && t.key == word)

def atSign (sign : String) : Parser Bool := do
  let t ← peek
  pure (t.kind == .sign && t.key == sign)

/-- Takes a word if it is the next token. -/
def word? (word : String) : Parser Bool := do
  if ← atWord word then
    let _ ← advance
    pure true
  else pure false

def sign? (sign : String) : Parser Bool := do
  if ← atSign sign then
    let _ ← advance
    pure true
  else pure false

def word (w : String) : Parser Unit := do
  if !(← word? w) then unexpected

def sign (s : String) : Parser Unit := do
  if !(← sign? s) then unexpected

/-- The word after the next token, if that is one. -/
def secondKey : Parser String := fun tokens => .ok ((tokens.drop 1).headD endToken |>.key, tokens)

def secondKind : Parser TokenKind := fun tokens =>
  .ok ((tokens.drop 1).headD endToken |>.kind, tokens)

def countTokens : Parser Nat := fun tokens => .ok (tokens.length, tokens)

/-- Words that are no names. -/
def reserved : List String :=
  ["ADD", "ALL", "ALTER", "AND", "AS", "AUTOINCREMENT", "BETWEEN", "CASE", "CHECK", "COLLATE",
    "COMMIT", "CONSTRAINT", "CREATE", "DEFAULT", "DEFERRABLE", "DELETE", "DISTINCT", "DROP",
    "ELSE", "ESCAPE", "EXCEPT", "EXISTS", "FOREIGN", "FROM", "GROUP", "HAVING", "IN", "INDEX",
    "INSERT", "INTERSECT", "INTO", "IS", "ISNULL", "JOIN", "LIMIT", "NOT", "NOTHING", "NOTNULL",
    "NULL", "ON", "OR", "ORDER", "PRIMARY", "REFERENCES", "RETURNING", "SELECT", "SET", "TABLE",
    "THEN", "TO", "TRANSACTION", "UNION", "UNIQUE", "UPDATE", "USING", "VALUES", "WHEN", "WHERE"]

/-- Words about joins and indexes, which are names only where a name must stand. -/
def joinWords : List String :=
  ["CROSS", "FULL", "INDEXED", "INNER", "LEFT", "NATURAL", "OUTER", "RIGHT"]

/-- The content of a text in single quotes, double quotes or the like. -/
def unquote (text : Text) : String :=
  let rec inside (quote : Char) : Text → Text
    | [] => []
    | [_] => []
    | c :: d :: rest =>
        if c = quote && d = quote then c :: inside quote rest else c :: inside quote (d :: rest)
  match text with
  | '[' :: rest => String.ofList rest.dropLast
  | q :: rest =>
      if q = '"' || q = '\'' || q = '\x60' then String.ofList (inside q rest)
      else String.ofList text
  | [] => ""

/-- The name that a token is, where a name may stand but need not. -/
def Token.plainName? (t : Token) : Option String :=
  match t.kind with
  | .word => if (reserved ++ joinWords).contains t.key then none else some (String.ofList t.text)
  | .quotedName => some (unquote t.text)
  | _ => none

/-- A name as a text in single quotes, too. -/
def Token.label? (t : Token) : Option String :=
  match t.kind with
  | .string => some (unquote t.text)
  | _ => Token.plainName? t

/-- The name that a token is, where a name must stand. -/
def Token.name? (t : Token) : Option String :=
  match t.kind with
  | .word => if reserved.contains t.key then none else some (String.ofList t.text)
  | _ => Token.label? t

def taken? (read : Token → Option String) : Parser (Option String) := do
  match read (← peek) with
  | some s =>
      let _ ← advance
      pure (some s)
  | none => pure none

def name : Parser String := do
  match ← taken? Token.name? with
  | some s => pure s
  | none => unexpected

/-- Items with commas between them; `fuel` bounds their number. -/
def commaSeparated (item : Parser α) : Nat → Parser (List α)
  | 0 => pure []
  | fuel + 1 => do
      let a ← item
      if ← sign? "," then
        let rest ← commaSeparated item fuel
        pure (a :: rest)
      else pure [a]

/-- One or more items with commas between them. -/
def list (item : Parser α) : Parser (List α) := do
  commaSeparated item (← countTokens)

def parenthesised (p : Parser α) : Parser α := do
  sign "("
  let a ← p
  sign ")"
  pure a

def nameList : Parser (List String) :=
  parenthesised (list name)

/-- A table name with an optional schema. -/
def tableName : Parser TableName := do
  let first ← name
  if ← sign? "." then
    let second ← name
    pure ⟨some first, second⟩
  else pure ⟨none, first⟩

/-- Repeats a parser as long as it finds something. -/
def many (item : Parser (Option α)) : Nat → Parser (List α)
  | 0 => pure []
  | fuel + 1 => do
      match ← item with
      | some a =>
          let rest ← many item fuel
          pure (a :: rest)
      | none => pure []

def repeated (item : Parser (Option α)) : Parser (List α) := do
  many item (← countTokens)

/-- Runs a parser if a word stands first. -/
def after? (w : String) (p : Parser α) : Parser (Option α) := do
  if ← word? w then
    let a ← p
    pure (some a)
  else pure none

/-- The source between two tokens, without blanks at its end. -/
def sourceBetween (first next : Token) : String :=
  let text := first.source.take (first.source.length - next.source.length)
  String.ofList (text.reverse.dropWhile Token.isBlank).reverse

end Parser

end SqlUnits.Sql
