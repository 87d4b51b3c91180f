import SqlUnits.Json.Reader
import SqlUnits.Number.Natural
import SqlUnits.Text.Quoted
/-!
Reading typed values from JSON. A record is an object, in which no known member is repeated and
unknown ones are skipped, or an array of its members in order. Of several faults the one that
comes first in the text is reported.
-/

namespace SqlUnits

/-- A value that was read, or the first fault. -/
def JsonRead (α : Type) : Type :=
  Except JsonError α

namespace JsonRead

def ok (a : α) : JsonRead α := Except.ok a

def fail (e : JsonError) : JsonRead α := Except.error e

/-- Of two faults the earlier one; of two at one place the first that was found. -/
def earlier (d e : JsonError) : JsonError :=
  if e.offset < d.offset then e else d

def both (f : α → β → γ) (x : JsonRead α) (y : JsonRead β) : JsonRead γ :=
  match x, y with
  | .ok a, .ok b => ok (f a b)
  | .error d, .error e => fail (earlier d e)
  | .error e, .ok _ => fail e
  | .ok _, .error e => fail e

instance : Applicative JsonRead where
  pure := ok
  seq f x := both (fun f a => f a) f (x ())

def all : List (JsonRead α) → JsonRead (List α)
  | [] => ok []
  | x :: rest => both List.cons x (all rest)

end JsonRead

namespace Json

/-- What a value is called in messages. -/
def described : Json → String
  | null => "null"
  | bool b => Misfit.describeBool b
  | int n => Misfit.describeInt n
  | decimal text => Misfit.describeDecimal text
  | str s => "string " ++ Text.quoted s
  | arr _ => "sequence"
  | obj _ => "map"

end Json

namespace JsonTree

/-- A value of the wrong kind; a bracket is not read to its end. -/
def mismatch (wanted : String) : JsonTree → JsonRead α
  | leaf value _ stop => .fail ⟨.misfit (.wrongType value.described wanted), stop⟩
  | arr start _ _ => .fail ⟨.misfit (.wrongType "sequence" wanted), start⟩
  | obj start _ _ => .fail ⟨.misfit (.wrongType "map" wanted), start⟩
  | marred e _ _ => .fail e
  | broken e => .fail e

def string : JsonTree → JsonRead String
  | leaf (.str s) _ _ => .ok s
  | t => t.mismatch "a string"

def bool : JsonTree → JsonRead Bool
  | leaf (.bool b) _ _ => .ok b
  | t => t.mismatch "a boolean"

/-- A count that a machine word of 64 bits can hold. -/
def count (t : JsonTree) : JsonRead Nat :=
  match t with
  | leaf (.int n) _ stop =>
      if 0 ≤ n ∧ n < twoPow 64 then .ok n.toNat
      else if n < 0 then .fail ⟨.misfit (.wrongValue (Misfit.describeInt n) "usize"), stop⟩
      else t.mismatch "usize"
  | t => t.mismatch "usize"

def list (read : JsonTree → JsonRead α) : JsonTree → JsonRead (List α)
  | arr _ items close => JsonRead.all (items.map read) <* close
  | t => t.mismatch "a sequence"

/-- A value that may be null. -/
def optional (read : JsonTree → JsonRead α) : JsonTree → JsonRead (Option α)
  | leaf .null _ _ => .ok none
  | t => some <$> read t

def named (names : List String) (ofName? : String → Option α) (name : String) (stop : Nat) :
    JsonRead α :=
  match ofName? name with
  | some a => .ok a
  | none => .fail ⟨.misfit (.unknownVariant name names), stop⟩

/-- One of a list of names: a string, or the only key of an object with null behind it. -/
def choice (names : List String) (ofName? : String → Option α) : JsonTree → JsonRead α
  | leaf (.str s) _ stop => named names ofName? s stop
  | obj _ [(key, leaf .null _ _)] close => named names ofName? key.name key.stop <* close
  | marred e _ _ => .fail e
  | broken e => .fail e
  | t => .fail ⟨.expected "value", t.start + 1⟩

/-- The members of a record, and where it ends; `absent` is what a missing one amounts to. -/
structure Members where
  find? : String → Option JsonTree
  close : JsonClose
  absent : String → Misfit

namespace Members

/-- The first member that comes twice among known names. -/
def repeated? (names : List String) :
    List String → List (JsonKey × JsonTree) → Option JsonKey
  | _, [] => none
  | seen, (key, _) :: rest =>
      if seen.contains key.name && names.contains key.name then some key
      else repeated? names (key.name :: seen) rest

def ofMembers (names : List String) (members : List (JsonKey × JsonTree))
    (close : JsonClose) : Members where
  find? name := (members.find? (·.1.name == name)).map (·.2)
  close :=
    match repeated? names [] members with
    | some key => .error ⟨.misfit (.duplicateField key.name), key.stop⟩
    | none => close
  absent := .missingField

def plural (n : Nat) (noun : String) : String :=
  toString n ++ " " ++ noun ++ (if n = 1 then "" else "s")

def lengthWanted (title : String) (names : List String) : String :=
  title ++ " with " ++ plural names.length "element"

/-- Items in the order of the names; none may be left over. -/
def ofItems (title : String) (names : List String) (items : List JsonTree)
    (close : JsonClose) : Members where
  find? name := (names.zip items).lookup name
  close :=
    match items[names.length]? with
    | some surplus => .error ⟨.trailingCharacters, surplus.start + 1⟩
    | none => close
  absent _ := .wrongLength items.length (lengthWanted title names)

def missing (m : Members) (name : String) : JsonRead α :=
  match m.close with
  | .ok stop => .fail ⟨.misfit (m.absent name), stop⟩
  | .error e => .fail e

def required (m : Members) (name : String) (read : JsonTree → JsonRead α) : JsonRead α :=
  match m.find? name with
  | some t => read t
  | none => m.missing name

/-- A member that may be missing. -/
def orElse (m : Members) (name : String) (read : JsonTree → JsonRead α) (default : α) :
    JsonRead α :=
  match m.find? name with
  | some t => read t
  | none => .ok default

/-- A member that may be missing or null. -/
def optional (m : Members) (name : String) (read : JsonTree → JsonRead α) :
    JsonRead (Option α) :=
  m.orElse name (JsonTree.optional read) none

end Members

def record (name : String) (names : List String) (read : Members → JsonRead α)
    (t : JsonTree) : JsonRead α :=
  let title := "struct " ++ name
  let whole (m : Members) : JsonRead α := read m <* m.close
  match t with
  | obj _ members close => whole (.ofMembers names members close)
  | arr _ items close => whole (.ofItems title names items close)
  | t => t.mismatch title

/-- The members of an object in order, whatever their names; the last of a name counts. -/
def dictionary (read : JsonTree → JsonRead α) : JsonTree → JsonRead (List (String × α))
  | obj _ members close =>
      JsonRead.all (members.map fun (key, t) => (key.name, ·) <$> read t) <* close
  | t => t.mismatch "a map"

/-- Reads a text that holds one value and nothing more. -/
def read (f : JsonTree → JsonRead α) (text : String) : Except JsonError α :=
  let grown := ofText text.toList
  match f grown.1 with
  | .ok a => (fun _ => a) <$> ending grown
  | .error e => .error e

end JsonTree

end SqlUnits
