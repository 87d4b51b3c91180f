import SqlUnits.Query.Region
/-!
SQL text cut into pieces: text that is kept as it is, and placeholders. The pieces of a text,
written one after the other, are the text.
-/

namespace SqlUnits.Query

/-- Why SQL text cannot be cut into pieces or blocks; offsets count bytes. -/
inductive QueryError where
  | unterminated (construct : Construct) (offset : Nat)
  | numberedPlaceholder (offset : Nat)
  | unclosedBlock (offset : Nat)
deriving DecidableEq

namespace QueryError

def offset : QueryError → Nat
  | unterminated _ n => n
  | numberedPlaceholder n => n
  | unclosedBlock n => n

/-- The same error in a text that begins `base` bytes earlier. -/
def shifted (base : Nat) : QueryError → QueryError
  | unterminated construct n => unterminated construct (n + base)
  | numberedPlaceholder n => numberedPlaceholder (n + base)
  | unclosedBlock n => unclosedBlock (n + base)

def message : QueryError → String
  | unterminated construct n =>
      "unterminated " ++ construct.name ++ " starting at offset " ++ toString n
  | numberedPlaceholder n =>
      "numbered placeholder at offset " ++ toString n ++
        " is not supported, use :name instead"
  | unclosedBlock n => "block opened at offset " ++ toString n ++ " is never closed"

end QueryError

inductive Piece where
  | verbatim (text : Text)
  | positional
  | named (name : Text)
deriving DecidableEq

namespace Piece

/-- A piece as it is written. -/
def raw : Piece → Text
  | verbatim text => text
  | positional => ['?']
  | named name => ':' :: name

/-- A piece with its placeholder, if it is one, in positional form. -/
def normal : Piece → Text
  | verbatim text => text
  | positional => ['?']
  | named _ => ['?']

def isPlaceholder : Piece → Bool
  | verbatim _ => false
  | _ => true

end Piece

/-- The first piece of a text at byte `offset` where no region begins, and what follows it. A pair
of colons is a cast, not a placeholder. -/
def plainPiece? (offset : Nat) : Text → Except QueryError (Option (Piece × Text))
  | [] => .ok none
  | '?' :: rest =>
      if rest.head?.any Text.isDigit then .error (.numberedPlaceholder offset)
      else .ok (some (.positional, rest))
  | ':' :: ':' :: rest => .ok (some (.verbatim [':', ':'], rest))
  | ':' :: rest =>
      let name := rest.takeWhile Text.isIdentChar
      if name.isEmpty then .ok (some (.verbatim [':'], rest))
      else .ok (some (.named name, rest.dropWhile Text.isIdentChar))
  | c :: rest => .ok (some (.verbatim [c], rest))

/-- The first piece of a text, if there is any. -/
def firstPiece? (offset : Nat) (cs : Text) : Except QueryError (Option (Piece × Text)) :=
  match verbatim cs with
  | .unclosed construct => .error (.unterminated construct offset)
  | .region text rest => .ok (some (.verbatim text, rest))
  | .none => plainPiece? offset cs

theorem plainPiece?_append {offset : Nat} {cs rest : Text} {piece : Piece}
    (h : plainPiece? offset cs = .ok (some (piece, rest))) :
    piece.raw ++ rest = cs ∧ piece.raw ≠ [] := by
  unfold plainPiece? at h
  split at h
  · simp at h
  · split at h
    · simp at h
    · cases h
      simp [Piece.raw]
  · cases h
    simp [Piece.raw]
  · dsimp only at h
    split at h
    · cases h
      simp [Piece.raw]
    · cases h
      simp [Piece.raw, List.takeWhile_append_dropWhile]
  · cases h
    simp [Piece.raw]

/-- A first piece, as it is written, leads the text, and is not empty. -/
theorem firstPiece?_append {offset : Nat} {cs rest : Text} {piece : Piece}
    (h : firstPiece? offset cs = .ok (some (piece, rest))) :
    piece.raw ++ rest = cs ∧ piece.raw ≠ [] := by
  unfold firstPiece? at h
  cases hv : verbatim cs with
  | unclosed construct => simp [hv] at h
  | region text after =>
    simp only [hv] at h
    cases h
    exact verbatim_region hv
  | none =>
    simp only [hv] at h
    exact plainPiece?_append h

theorem firstPiece?_shorter {offset : Nat} {cs rest : Text} {piece : Piece}
    (h : firstPiece? offset cs = .ok (some (piece, rest))) : rest.length < cs.length := by
  obtain ⟨rfl, hraw⟩ := firstPiece?_append h
  have := List.length_pos_iff.2 hraw
  simp
  omega

/-- Cuts a text that begins at byte `offset`. -/
def pieces (offset : Nat) (cs : Text) : Except QueryError (List Piece) :=
  match h : firstPiece? offset cs with
  | .error e => .error e
  | .ok none => .ok []
  | .ok (some (piece, rest)) =>
      have := firstPiece?_shorter h
      (piece :: ·) <$> pieces (offset + Text.byteLength piece.raw) rest
termination_by cs.length

end SqlUnits.Query
