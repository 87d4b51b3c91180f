import SqlUnits.Sql.Outline
/-!
Where the columns of a plain query come from: the tables that it names, and for every item of its
list the column it is. Queries over queries, common tables or functions are left open.
-/

namespace SqlUnits

structure SourceTable where
  name : String
  asName : Option String
  /-- On the optional side of an outer join. -/
  outer : Bool
deriving DecidableEq

/-- Whether a qualifier means the table; an alias hides the name. -/
def SourceTable.answersTo (table : SourceTable) (qualifier : String) : Bool :=
  Text.sameLetters (table.asName.getD table.name) qualifier

inductive ProjectionItem where
  | column (qualifier : Option String) (name : String)
  | wildcard (qualifier : Option String)
  | expression
deriving DecidableEq

structure SelectSources where
  tables : List SourceTable
  items : List ProjectionItem
deriving DecidableEq

namespace SelectSources

open Sql (Joined Source Expr ResultColumn Token)

/-- Words for values that look like columns. -/
def isTruthWord (name : String) : Bool :=
  ["true", "false"].any (Text.sameLetters · name)

def itemOf : ResultColumn → ProjectionItem
  | .expr (.column parts quoted _) _ _ =>
      match parts.reverse with
      | [name] => if !quoted && isTruthWord name then .expression else .column none name
      | name :: qualifier :: _ => .column (some qualifier) name
      | [] => .expression
  | .expr _ _ _ => .expression
  | .all => .wildcard none
  | .allOf table => .wildcard (some table)

def markOuter (tables : List SourceTable) : List SourceTable :=
  tables.map fun t => { t with outer := true }

/-- Adds tables from left to right. A comma begins anew: the joins behind it make nothing in front
of it optional. -/
def collect (done current : List SourceTable) : List Joined → Option (List SourceTable)
  | [] => some (done ++ current)
  | .mk kind source _ _ :: rest =>
      match source with
      | .table name asName =>
          let table : SourceTable := ⟨name.name, asName, kind.left⟩
          if kind.comma then collect (done ++ current) [table] rest
          else
            let current := if kind.right then markOuter current else current
            collect done (current ++ [table]) rest
      | _ => none

def ofSelect? : Sql.Select → Option SelectSources
  | .mk [] (.select _ columns sources _ _ _) [] _ _ _ => do
      let tables ← collect [] [] sources
      pure ⟨tables, columns.map itemOf⟩
  | _ => none

/-- What may be tested behind `IS` in the SQL that databases share. -/
def shareableTests : List String := ["NULL", "TRUE", "FALSE", "UNKNOWN", "DISTINCT"]

/-- Whether a token, with the ones behind it, is SQL of one database alone. -/
def isPeculiar (t next third : Token) : Bool :=
  t.kind == .word &&
    (["ISNULL", "NOTNULL", "GLOB", "INDEXED"].contains t.key ||
      t.text.any (·.toNat > 0xffff) ||
      (t.key == "IS" &&
        !(shareableTests.contains (if next.key == "NOT" then third.key else next.key))))

def hasPeculiar : List Token → Bool
  | t :: next :: rest =>
      isPeculiar t next (rest.headD Sql.Parser.endToken) || hasPeculiar (next :: rest)
  | _ => false

/-- A dollar sign is a letter of names. -/
def asWord (t : Token) : Token :=
  if t.kind = .variable ∧ t.text.head? = some '$' then
    { t with kind := .word, key := Text.upperString (String.ofList t.text) }
  else t

/-- The single query of a text. -/
def select? (tokens : List Token) : Option Sql.Select :=
  let semicolon (t : Token) : Bool := t.kind == .sign && t.key == ";"
  let tokens := tokens.dropWhile semicolon
  match (Sql.Query.select (Sql.Rules.at (tokens.length + 1))) tokens with
  | .ok (q, rest) =>
      if ((rest.dropWhile semicolon).headD Sql.Parser.endToken).kind = .finish then some q else none
  | .error _ => none

def ofText? (sql : String) : Option SelectSources := do
  let tokens := (Sql.Outline.tokens sql.toList).map asWord
  if hasPeculiar tokens then none
  else ofSelect? (← select? tokens)

end SelectSources

end SqlUnits
