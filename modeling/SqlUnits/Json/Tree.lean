import SqlUnits.Json.Basic
import SqlUnits.Text.Misfit
import SqlUnits.Text.Span
/-!
A JSON text as it stands, up to its first fault. Values know where they are, so that what is wrong
with one can be told with its place, and a fault counts only when a reader comes to it.
-/

namespace SqlUnits

inductive JsonProblem where
  /-- The text ends inside the named part. -/
  | endOfText (part : String)
  | expected (what : String)
  | keyNotString
  | trailingComma
  | trailingCharacters
  | controlCharacter
  | badEscape
  | loneSurrogate
  | brokenPair
  | badNumber
  | tooDeep
  | misfit (m : Misfit)
deriving DecidableEq

namespace JsonProblem

def message : JsonProblem → String
  | endOfText part => "EOF while parsing " ++ part
  | expected what => "expected " ++ what
  | keyNotString => "key must be a string"
  | trailingComma => "trailing comma"
  | trailingCharacters => "trailing characters"
  | controlCharacter =>
      "control character (\\u0000-\\u001F) found while parsing a string"
  | badEscape => "invalid escape"
  | loneSurrogate => "lone leading surrogate in hex escape"
  | brokenPair => "unexpected end of hex escape"
  | badNumber => "invalid number"
  | tooDeep => "recursion limit exceeded"
  | misfit m => m.message

end JsonProblem

/-- A problem, and the offset that a reader has come to when it shows. -/
structure JsonError where
  problem : JsonProblem
  offset : Nat
deriving DecidableEq

/-- The message over the text that was read; columns count from zero. -/
def JsonError.message (e : JsonError) (text : String) : String :=
  let lines := LineIndex.ofText text.toList
  e.problem.message ++ " at line " ++ toString (lines.line e.offset) ++ " column " ++
    toString (lines.column e.offset - 1)

/-- A bracket that is closed, with the offset behind it, or else what is wrong after its items. -/
abbrev JsonClose := Except JsonError Nat

structure JsonKey where
  name : String
  /-- The offset of what follows the key and the blanks behind it. -/
  stop : Nat

inductive JsonTree where
  | leaf (value : Json) (start stop : Nat)
  | arr (start : Nat) (items : List JsonTree) (close : JsonClose)
  | obj (start : Nat) (members : List (JsonKey × JsonTree)) (close : JsonClose)
  /-- A string that is well formed, but whose escapes make no text; one may skip it. -/
  | marred (e : JsonError) (start stop : Nat)
  | broken (e : JsonError)

namespace JsonTree

/-- Where a value begins; a broken one counts from its fault. -/
def start : JsonTree → Nat
  | leaf _ start _ => start
  | arr start _ _ => start
  | obj start _ _ => start
  | marred _ start _ => start
  | broken e => e.offset

/-- Where a value ends, or what is wrong inside. -/
def close : JsonTree → JsonClose
  | leaf _ _ stop => .ok stop
  | arr _ _ close => close
  | obj _ _ close => close
  | marred _ _ stop => .ok stop
  | broken e => .error e

mutual

/-- The value, unless something in it cannot be read. -/
def toJson? : JsonTree → Option Json
  | leaf value _ _ => some value
  | arr _ items _ => .arr <$> itemsToJson? items
  | obj _ members _ => .obj <$> membersToJson? members
  | marred _ _ _ => none
  | broken _ => none

def itemsToJson? : List JsonTree → Option (List Json)
  | [] => some []
  | t :: rest => List.cons <$> t.toJson? <*> itemsToJson? rest

def membersToJson? : List (JsonKey × JsonTree) → Option (List (String × Json))
  | [] => some []
  | (key, t) :: rest =>
      (fun value more => (key.name, value) :: more) <$> t.toJson? <*> membersToJson? rest

end

end JsonTree

end SqlUnits
