import SqlUnits.Text.Hex
/-!
JSON values and their two written forms: compact, and indented by two blanks. Only the quote, the
backslash and control characters are escaped.
-/

namespace SqlUnits

/-- Object members keep their order; a number that is no integer keeps its text. -/
inductive Json where
  | null
  | bool (b : Bool)
  | int (n : Int)
  | decimal (text : String)
  | str (s : String)
  | arr (items : List Json)
  | obj (members : List (String × Json))
deriving Inhabited

namespace Json

def escapeChar (c : Char) : Text :=
  match c with
  | '"' => ['\\', '"']
  | '\\' => ['\\', '\\']
  | '\n' => ['\\', 'n']
  | '\r' => ['\\', 'r']
  | '\t' => ['\\', 't']
  | '\x08' => ['\\', 'b']
  | '\x0c' => ['\\', 'f']
  | c => if c.toNat < 32 then '\\' :: 'u' :: Hex.ofNat 4 c.toNat else [c]

def quote (s : String) : String :=
  "\"" ++ String.ofList (s.toList.flatMap escapeChar) ++ "\""

mutual

def compact : Json → String
  | null => "null"
  | bool true => "true"
  | bool false => "false"
  | int n => toString n
  | decimal text => text
  | str s => quote s
  | arr items => "[" ++ String.intercalate "," (compactItems items) ++ "]"
  | obj members => "\x7b" ++ String.intercalate "," (compactMembers members) ++ "\x7d"

def compactItems : List Json → List String
  | [] => []
  | item :: rest => item.compact :: compactItems rest

def compactMembers : List (String × Json) → List String
  | [] => []
  | (name, value) :: rest => (quote name ++ ":" ++ value.compact) :: compactMembers rest

end

/-- A bracketed list, one entry a line; an empty one stays on its line. -/
def layout (indent : String) (opening closing : String) (entries : List String) : String :=
  if entries.isEmpty then opening ++ closing
  else
    opening ++ "\n" ++
      String.intercalate ",\n" (entries.map fun entry => indent ++ "  " ++ entry) ++
      "\n" ++ indent ++ closing

mutual

def prettyAt (indent : String) : Json → String
  | arr items => layout indent "[" "]" (prettyItems (indent ++ "  ") items)
  | obj members => layout indent "\x7b" "\x7d" (prettyMembers (indent ++ "  ") members)
  | null => "null"
  | bool true => "true"
  | bool false => "false"
  | int n => toString n
  | decimal text => text
  | str s => quote s

def prettyItems (indent : String) : List Json → List String
  | [] => []
  | item :: rest => item.prettyAt indent :: prettyItems indent rest

def prettyMembers (indent : String) : List (String × Json) → List String
  | [] => []
  | (name, value) :: rest =>
      (quote name ++ ": " ++ value.prettyAt indent) :: prettyMembers indent rest

end

def pretty (j : Json) : String :=
  j.prettyAt ""

/-- The value of the last member called `name`. -/
def field? (j : Json) (name : String) : Option Json :=
  match j with
  | obj members => (members.reverse.find? (·.1 == name)).map (·.2)
  | _ => none

/-- A member that is absent or null is not there. -/
def get? (j : Json) (name : String) : Option Json :=
  match j.field? name with
  | some null => none
  | found => found

def nat (n : Nat) : Json :=
  int n

def opt (f : α → Json) : Option α → Json
  | some a => f a
  | none => null

/-- Members without a value are left out. -/
def objSome (members : List (String × Option Json)) : Json :=
  obj (members.filterMap fun (name, value?) => value?.map (name, ·))

def str? : Json → Option String
  | str s => some s
  | _ => none

def int? : Json → Option Int
  | int n => some n
  | _ => none

def nat? : Json → Option Nat
  | int n => if 0 ≤ n then some n.toNat else none
  | _ => none

def bool? : Json → Option Bool
  | bool b => some b
  | _ => none

def arr? : Json → Option (List Json)
  | arr items => some items
  | _ => none

end Json

end SqlUnits
