import SqlUnits.Query.Piece
/-!
The end of a block in braces. Braces inside quoted regions and comments do not count.
-/

namespace SqlUnits.Query

/-- Searches text at byte `offset`, inside `depth` open braces, for the one that closes them all. -/
def blockEndFrom (start depth offset : Nat) (cs : Text) : Except QueryError Nat :=
  match h : lexeme cs with
  | .done => .error (.unclosedBlock start)
  | .unclosed construct => .error (.unterminated construct offset)
  | .region text rest =>
      have := lexeme_region_shorter h
      blockEndFrom start depth (offset + Text.byteLength text) rest
  | .char c rest =>
      have := lexeme_char_shorter h
      if c = '\x7d' && depth = 1 then .ok offset
      else
        let depth := if c = '\x7b' then depth + 1 else if c = '\x7d' then depth - 1 else depth
        blockEndFrom start depth (offset + c.utf8Size) rest
termination_by cs.length

/-- The offset of the brace that closes the block opened at `start`, the head of `cs`. -/
def blockEnd (start : Nat) (cs : Text) : Except QueryError Nat :=
  blockEndFrom start 0 start cs

end SqlUnits.Query
