import SqlUnits.Text.Ascii
import SqlUnits.Text.Blank
/-!
Files that set variables of the environment, one on a line. A value may stand in quotes, over
several lines too, and may name other variables behind a dollar sign.
-/

namespace SqlUnits.Environment

/-- What the quotes and backslashes so far make of the next character. -/
inductive Quoting where
  | complete
  | escape
  | strong
  | strongEscape
  | weak
  | weakEscape
  | blank
  | comment
deriving DecidableEq

namespace Quoting

def opened (otherwise : Quoting) (c : Char) : Quoting :=
  match c with
  | '\\' => .escape
  | '"' => .weak
  | '\'' => .strong
  | _ => otherwise

def next (q : Quoting) (c : Char) : Quoting :=
  match q with
  | .blank => if c == '#' then .comment else opened .complete c
  | .escape => .complete
  | .complete =>
      opened (if Text.isBlank c && c != '\n' && c != '\r' then .blank else .complete) c
  | .weak => if c == '\\' then .weakEscape else if c == '"' then .complete else .weak
  | .weakEscape => .weak
  | .strong => if c == '\\' then .strongEscape else if c == '\'' then .complete else .strong
  | .strongEscape => .strong
  | .comment => .comment

/-- Reads characters up to a comment; gives those before it. -/
def through : Quoting → Text → Text × Quoting
  | q, [] => ([], q)
  | q, c :: rest =>
      match q.next c with
      | .comment => ([], .comment)
      | q =>
          let (kept, q) := through q rest
          (c :: kept, q)

end Quoting

/-- Lines with their newlines. -/
def physicalLines : Text → Text → List Text
  | [], [] => []
  | line, [] => [line.reverse]
  | line, '\n' :: rest => ('\n' :: line).reverse :: physicalLines [] rest
  | line, c :: rest => physicalLines (c :: line) rest

def dropNewline (line : Text) : Text :=
  match line.reverse with
  | '\n' :: '\r' :: rest => rest.reverse
  | '\n' :: rest => rest.reverse
  | _ => line

/-- Lines in which every quote is closed; the last one may lack its end, and is none then. -/
def logicalLines (before : Text) (q : Quoting) : List Text → List (Option Text)
  | [] => if q == .complete then [] else [none]
  | line :: rest =>
      let all := before ++ line
      if (Text.trimStart all).head? == some '#' then some [] :: logicalLines [] .complete rest
      else
        match q.through line with
        | (_, .complete) => some (dropNewline all) :: logicalLines [] .complete rest
        | (kept, .comment) => some (before ++ kept) :: logicalLines [] .complete rest
        | (_, q) => logicalLines all q rest

def isKeyStart (c : Char) : Bool :=
  Text.isLetter c || c == '_'

def isKeyChar (c : Char) : Bool :=
  Text.isIdentChar c || c == '.'

/-- How far the reading of a value has come. -/
structure ValueState where
  done : Text := []
  strong : Bool := false
  weak : Bool := false
  escaped : Bool := false
  /-- A blank was read; only a comment may follow. -/
  ended : Bool := false
  /-- The name of a variable that is being read. -/
  name : Option Text := none
  /-- The name stands in braces. -/
  braced : Bool := false

namespace ValueState

def add (s : ValueState) (c : Char) : ValueState :=
  { s with done := c :: s.done }

/-- Puts the value of the variable whose name has been read. -/
def substitute (lookup : String → Option String) (s : ValueState) : ValueState :=
  match s.name with
  | none => s
  | some name =>
      let value := (lookup (String.ofList name.reverse)).getD ""
      { s with done := value.toList.reverse ++ s.done, name := none, braced := false }

def escapedChar? (c : Char) : Option Char :=
  if c == 'n' then some '\n'
  else if ['\\', '\'', '"', '$', ' '].contains c then some c
  else none

/-- A character inside the name of a variable. -/
def nameStep (lookup : String → Option String) (s : ValueState) (name : Text) (c : Char) :
    ValueState :=
  if s.braced then
    if c == '\x7d' then s.substitute lookup else { s with name := some (c :: name) }
  else if Text.isLetter c || Text.isDigit c || c.toNat ≥ 128 then
    { s with name := some (c :: name) }
  else if c == '\x7b' && name.isEmpty then { s with braced := true }
  else
    let s := s.substitute lookup
    if c == '$' then { s with name := some [] } else s.add c

def step (lookup : String → Option String) (s : ValueState) (c : Char) : Option ValueState :=
  if s.escaped then (escapedChar? c).map fun d => { s.add d with escaped := false }
  else if s.strong then some (if c == '\'' then { s with strong := false } else s.add c)
  else
    match s.name with
    | some name => some (s.nameStep lookup name c)
    | none =>
        if c == '$' then some { s with name := some [] }
        else if c == '\\' then some { s with escaped := true }
        else if s.weak then some (if c == '"' then { s with weak := false } else s.add c)
        else if c == '\'' then some { s with strong := true }
        else if c == '"' then some { s with weak := true }
        else if c == ' ' || c == '\t' then some { s with ended := true }
        else some (s.add c)

end ValueState

def readValue (lookup : String → Option String) : ValueState → Text → Option String
  | s, [] =>
      if s.braced || s.strong || s.weak then none
      else some (String.ofList (s.substitute lookup).done.reverse)
  | s, c :: rest =>
      if s.ended then
        if c == ' ' || c == '\t' then readValue lookup s rest
        else if c == '#' then readValue lookup s []
        else none
      else do readValue lookup (← s.step lookup c) rest

def readKey (cs : Text) : Option (Text × Text) :=
  if cs.head?.any isKeyStart then
    let key := cs.takeWhile isKeyChar
    some (key, Text.trimStart (cs.drop key.length))
  else none

def afterEquals : Text → Option Text
  | '=' :: rest => some (Text.trimStart rest)
  | _ => none

/-- The key of a line and the text behind its equals sign; a word may come before the key. -/
def keyOf (cs : Text) : Option (String × Text) := do
  let (key, rest) ← readKey cs
  match afterEquals rest with
  | some rest => pure (String.ofList key, rest)
  | none =>
      if key == ['e', 'x', 'p', 'o', 'r', 't'] then
        let (key, rest) ← readKey rest
        pure (String.ofList key, ← afterEquals rest)
      else none

/-- An assignment; none for a line that makes none. -/
def assignment (lookup : String → Option String) (line : Text) :
    Option (Option (String × String)) :=
  let cs := Text.trimStart line
  if cs.isEmpty || cs.head? == some '#' then some none
  else do
    let (key, rest) ← keyOf cs
    if rest.isEmpty || rest.head? == some '#' then pure (some (key, ""))
    else pure (some (key, ← readValue lookup {} rest))

/-- Variables with their values; of one name the first counts. -/
abbrev Variables := List (String × String)

/-- Takes lines up to the first that cannot be read; what is set already stays. -/
def load (vars : Variables) : List (Option Text) → Variables
  | [] => vars
  | none :: _ => vars
  | some line :: rest =>
      match assignment (fun name => vars.lookup name) line with
      | none => vars
      | some none => load vars rest
      | some (some entry) => load (vars ++ [entry]) rest

/-- The variables that hold once a file is read. -/
def ofFile (outer : Variables) (text : String) : Variables :=
  let cs := match text.toList with
    | '\ufeff' :: rest => rest
    | cs => cs
  load outer (logicalLines [] .complete (physicalLines [] cs))

end SqlUnits.Environment
