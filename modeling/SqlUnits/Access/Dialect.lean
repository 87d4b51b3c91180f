import SqlUnits.Access.Error
import SqlUnits.Text.Ascii
import SqlUnits.Text.Blank
/-!
Dialects: how a call escape and the next value of a sequence are written in the SQL of a database.
-/

namespace SqlUnits

/-- A name in double quotes; a quote inside it is doubled. -/
def quoteIdent (name : String) : String :=
  "\"" ++ String.ofList (name.toList.flatMap fun c => if c = '"' then ['"', '"'] else [c]) ++ "\""

structure Dialect where
  name : String
  callSql : String → Except AccessError String
  nextIdSql : String → String

/-- A call escape: whether it has an OUT marker, the procedure, and its argument text. -/
structure CallEscape where
  out : Bool
  name : Text
  args : Text

/-- The letters of a procedure name, whatever their case: the long s and the Kelvin sign are an
`s` and a `k` in another form. -/
def isNameLetter (c : Char) : Bool :=
  Text.isLetter c || c == '\u017f' || c == '\u212a'

def isNameChar (c : Char) : Bool :=
  Text.isIdentChar c || isNameLetter c || c == '.'

/-- The text between an opening and a closing character, when it begins and ends with them. -/
def enclosed? (opening closing : Char) : Text → Option Text
  | [] => none
  | c :: rest =>
      if c = opening ∧ rest.getLast? = some closing then some rest.dropLast else none

/-- What follows the word `call` and the blanks behind it. -/
def callWord? (cs : Text) : Option Text :=
  if (cs.take 4).map Text.lower = ['c', 'a', 'l', 'l'] then
    let rest := cs.drop 4
    if rest.head?.any Text.isBlank then some (Text.trimStart rest) else none
  else none

namespace CallEscape

/-- The marker of an OUT parameter apart from what follows it. -/
def splitOut (cs : Text) : Bool × Text :=
  match cs with
  | '?' :: rest =>
      match Text.trimStart rest with
      | '=' :: rest => (true, Text.trimStart rest)
      | _ => (false, cs)
  | _ => (false, cs)

/-- Reads the name and the arguments behind the word. -/
def readCall? (out : Bool) (cs : Text) : Option CallEscape := do
  let name := cs.takeWhile isNameChar
  let after := Text.trimStart (cs.drop name.length)
  let first ← name.head?
  if !(isNameLetter first || first == '_') then none
  else if after.isEmpty then pure ⟨out, name, []⟩
  else pure ⟨out, name, Text.trim (← enclosed? '(' ')' after)⟩

/-- Reads `{ call name(args) }` or `{ ? = call name(args) }`; the arguments may be missing. -/
def read? (sql : String) : Option CallEscape := do
  let inside ← enclosed? '\x7b' '\x7d' (Text.trim sql.toList)
  let (out, rest) := splitOut (Text.trim inside)
  readCall? out (← callWord? rest)

end CallEscape

namespace Dialect

/-- Procedures are functions, called by a query; a sequence is a table with one row. -/
def sqlite : Dialect where
  name := "sqlite"
  callSql := fun sql =>
    match CallEscape.read? sql with
    | none => .ok sql
    | some escape =>
        if escape.out then .error (.configuration .outParameters)
        else .ok ("SELECT " ++ String.ofList escape.name ++ "(" ++ String.ofList escape.args ++ ")")
  nextIdSql := fun sequence =>
    "UPDATE " ++ quoteIdent sequence ++ " SET value = value + 1 RETURNING value"

/-- A database without procedures. -/
def noProcedures : Dialect where
  name := "no-procedures"
  callSql := fun _ => .error (.configuration .noProcedures)
  nextIdSql := fun sequence => "SELECT value FROM " ++ sequence

end Dialect

end SqlUnits
