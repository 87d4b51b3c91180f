import SqlUnits.Query.Piece
/-!
SQL text in normal form: every placeholder is a question mark, and is listed with the name and
the place it was written at. `numbered` goes the other way and numbers the question marks.
-/

namespace SqlUnits.Query

structure Placeholder where
  /-- The offset of the question mark in the normal form. -/
  offset : Nat
  name : Option String
  /-- The place of the placeholder in the text as written. -/
  span : Span
deriving DecidableEq

structure ParsedQuery where
  sql : String
  placeholders : List Placeholder
deriving DecidableEq

/-- The placeholders among pieces that begin at `out` in the normal form and at `raw` as written. -/
def placeholdersFrom (out raw : Nat) : List Piece → List Placeholder
  | [] => []
  | piece :: rest =>
      let more :=
        placeholdersFrom (out + Text.byteLength piece.normal)
          (raw + Text.byteLength piece.raw) rest
      let span := ⟨raw, raw + Text.byteLength piece.raw⟩
      match piece with
      | .verbatim _ => more
      | .positional => ⟨out, none, span⟩ :: more
      | .named name => ⟨out, some (String.ofList name), span⟩ :: more

namespace ParsedQuery

def ofPieces (ps : List Piece) : ParsedQuery where
  sql := String.ofList (ps.flatMap Piece.normal)
  placeholders := placeholdersFrom 0 0 ps

def positions (q : ParsedQuery) : List Nat :=
  q.placeholders.map Placeholder.offset

def paramCount (q : ParsedQuery) : Nat :=
  q.placeholders.length

/-- The written names, each with the index of its placeholder. -/
def names (q : ParsedQuery) : List (Nat × String) :=
  q.placeholders.zipIdx.filterMap fun (p, i) => p.name.map (i, ·)

def hasNamed (q : ParsedQuery) : Bool :=
  q.placeholders.any (·.name.isSome)

def hasPositional (q : ParsedQuery) : Bool :=
  q.placeholders.any (·.name.isNone)

end ParsedQuery

def parse (sql : String) : Except QueryError ParsedQuery :=
  ParsedQuery.ofPieces <$> pieces 0 sql.toList

/-- Writes pieces with the n-th placeholder as `:n`; names stay, but take part in the count. -/
def numberFrom (index : Nat) : List Piece → Text
  | [] => []
  | .positional :: rest => ':' :: (toString index).toList ++ numberFrom (index + 1) rest
  | .named name :: rest => ':' :: name ++ numberFrom (index + 1) rest
  | .verbatim text :: rest => text ++ numberFrom index rest

def numbered (sql : String) : Except QueryError String :=
  (String.ofList <| numberFrom 1 ·) <$> pieces 0 sql.toList

/-- The escape form of a procedure call with `count` placeholders. -/
def callForm (name : String) (count : Nat) : String :=
  "\x7b call " ++ name ++ "(" ++ String.intercalate ", " (List.replicate count "?") ++ ") \x7d"

end SqlUnits.Query
