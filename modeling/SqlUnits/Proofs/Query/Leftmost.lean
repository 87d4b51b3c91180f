import SqlUnits.Proofs.Query.Framing
/-!
Where a text cannot be cut into pieces. It is cut up to the place of the error. There stands the
opening mark of a region that nothing behind it closes, or a question mark before a digit; what
stands behind them has no part in the error.
-/

namespace SqlUnits.Query

variable {ps : List Piece} {cs rest : Text} {next : Option Char} {e : QueryError} {n : Nat}

/-- No quote closes a text in which all of them come in pairs. -/
theorem closeQuote?_eq_none_iff {quote : Char} : closeQuote? quote cs = none ↔ Paired quote cs := by
  constructor
  · intro unclosed
    fun_induction closeQuote? quote cs with
    | case1 => exact .nil
    | case2 => cases unclosed
    | case3 c other => exact .other other .nil
    | case4 rest ih => exact .pair (ih (Option.map_eq_none_iff.1 unclosed))
    | case5 => cases unclosed
    | case6 c d rest other ih => exact .other other (ih (Option.map_eq_none_iff.1 unclosed))
  · intro paired
    induction paired with
    | nil => rfl
    | pair _ ih => simp [closeQuote?, ih]
    | other different _ ih => rw [closeQuote?_other different, ih, Option.map_none]

/-- The opening mark of a construct, and behind it a text that holds nothing to close it: no quote
that is not doubled, or no closing mark of a comment. -/
inductive Unclosed : Construct → Text → Prop
  | stringLiteral {behind : Text} (doubled : Paired '\'' behind) :
      Unclosed .stringLiteral ('\'' :: behind)
  | quotedIdentifier {quote : Char} {behind : Text} (mark : quote ∈ ['"', '\x60'])
      (doubled : Paired quote behind) : Unclosed .quotedIdentifier (quote :: behind)
  | blockComment {behind : Text} (noMark : ¬['*', '/'] <:+: behind) :
      Unclosed .blockComment ('/' :: '*' :: behind)

theorem Verbatim.ofClosed_unclosed {opening : Text} {construct other : Construct}
    {closed : Option (Text × Text)} :
    Verbatim.ofClosed opening construct closed = .unclosed other ↔
      closed = Option.none ∧ construct = other := by
  cases closed <;> simp [Verbatim.ofClosed]

theorem verbatim_eq_unclosed_iff {construct : Construct} :
    verbatim cs = .unclosed construct ↔ Unclosed construct cs := by
  constructor
  · intro open_
    unfold verbatim at open_
    split at open_
    case h_4 => cases open_
    case h_6 => cases open_
    case h_5 =>
      obtain ⟨closed, rfl⟩ := Verbatim.ofClosed_unclosed.1 open_
      exact .blockComment (closeComment?_eq_none_iff.1 closed)
    case h_1 =>
      obtain ⟨closed, rfl⟩ := Verbatim.ofClosed_unclosed.1 open_
      exact .stringLiteral (closeQuote?_eq_none_iff.1 closed)
    all_goals
      obtain ⟨closed, rfl⟩ := Verbatim.ofClosed_unclosed.1 open_
      exact .quotedIdentifier (by decide) (closeQuote?_eq_none_iff.1 closed)
  · intro open_
    cases open_ with
    | stringLiteral doubled =>
        exact Verbatim.ofClosed_unclosed.2 ⟨closeQuote?_eq_none_iff.2 doubled, rfl⟩
    | quotedIdentifier mark doubled =>
        have closed := closeQuote?_eq_none_iff.2 doubled
        simp only [List.mem_cons, List.not_mem_nil, or_false] at mark
        rcases mark with rfl | rfl <;> exact Verbatim.ofClosed_unclosed.2 ⟨closed, rfl⟩
    | blockComment noMark =>
        exact Verbatim.ofClosed_unclosed.2 ⟨closeComment?_eq_none_iff.2 noMark, rfl⟩

/-- A block is left open: as a whole, or by a region in it. -/
theorem blockEndFrom_eq_error {start depth offset : Nat}
    (failed : blockEndFrom start depth offset cs = .error e) :
    e = .unclosedBlock start ∨
      ∃ construct inside rest, cs = inside ++ rest ∧ Unclosed construct rest ∧
        e = .unterminated construct (offset + Text.byteLength inside) := by
  fun_induction blockEndFrom start depth offset cs with
  | case1 => exact .inl (Except.error.inj failed).symm
  | case2 depth offset cs construct read =>
      refine .inr ⟨construct, [], cs, rfl, ?_, (Except.error.inj failed).symm⟩
      exact verbatim_eq_unclosed_iff.1 (verbatim_of_unclosed read)
  | case3 depth offset cs text rest read _ ih =>
      obtain ⟨rfl, _⟩ := lexeme_region read
      refine (ih failed).imp_right ?_
      rintro ⟨construct, inside, behind, rfl, open_, rfl⟩
      refine ⟨construct, text ++ inside, behind, (List.append_assoc _ _ _).symm, open_, ?_⟩
      rw [Text.byteLength_append, Nat.add_assoc]
  | case4 => cases failed
  | case5 depth offset cs c rest read _ _ _ ih =>
      obtain rfl := lexeme_char read
      refine (ih failed).imp_right ?_
      rintro ⟨construct, inside, behind, rfl, open_, rfl⟩
      refine ⟨construct, c :: inside, behind, rfl, open_, ?_⟩
      rw [Text.byteLength_cons, Nat.add_assoc]

/-- What stands at the place of an error. -/
inductive QueryError.Names : QueryError → Text → Prop
  | unterminated {construct : Construct} {offset : Nat} {rest : Text}
      (open_ : Unclosed construct rest) : Names (.unterminated construct offset) rest
  | numberedPlaceholder {offset : Nat} {digit : Char} {rest : Text}
      (isDigit : Text.isDigit digit = true) :
      Names (.numberedPlaceholder offset) ('?' :: digit :: rest)

theorem plainPiece?_eq_error_iff (plain : verbatim cs = .none) :
    plainPiece? n cs = .error e ↔ e.Names cs ∧ e.offset = n := by
  constructor
  · intro failed
    obtain rfl := plainPiece?_eq_error failed
    refine ⟨?_, rfl⟩
    unfold plainPiece? at failed
    split at failed
    case h_2 rest =>
      cases rest with
      | nil => cases failed
      | cons digit rest =>
          cases isDigit : Text.isDigit digit with
          | true => exact .numberedPlaceholder isDigit
          | false => simp [isDigit] at failed
    case h_4 => dsimp only at failed; split at failed <;> cases failed
    all_goals cases failed
  · rintro ⟨names, rfl⟩
    cases names with
    | unterminated open_ =>
        rw [verbatim_eq_unclosed_iff.2 open_] at plain
        cases plain
    | numberedPlaceholder isDigit => simp [plainPiece?, isDigit, QueryError.offset]

theorem firstPiece?_eq_error_iff :
    firstPiece? n cs = .error e ↔ e.Names cs ∧ e.offset = n := by
  unfold firstPiece?
  cases read : verbatim cs with
  | none => exact plainPiece?_eq_error_iff read
  | region text rest =>
      refine iff_of_false nofun ?_
      rintro ⟨names, -⟩
      cases names with
      | unterminated open_ =>
          rw [verbatim_eq_unclosed_iff.2 open_] at read
          cases read
      | numberedPlaceholder => cases read
  | unclosed construct =>
      constructor
      · rintro ⟨⟩
        exact ⟨.unterminated (verbatim_eq_unclosed_iff.1 read), rfl⟩
      · rintro ⟨names, rfl⟩
        cases names with
        | unterminated open_ =>
            rw [verbatim_eq_unclosed_iff.2 open_] at read
            cases read
            rfl
        | numberedPlaceholder => cases read

/-- Pieces that lead to a text are those of what stands before it. -/
theorem LeadTo.isCut (lead : LeadTo ps rest) : IsCut ps := by
  induction ps with
  | nil => trivial
  | cons p ps ih =>
      obtain ⟨leads, leadTail⟩ := lead
      have cutTail := ih leadTail
      refine ⟨?_, cutTail⟩
      cases ps with
      | nil => exact leads.before_end
      | cons q ps => rwa [List.head?_append_of_ne_nil _ (cutTail.spelled_ne_nil nofun)] at leads

/-- A text is cut up to where it cannot be cut. -/
theorem pieces_eq_error_iff :
    pieces n cs = .error e ↔
      ∃ ps rest, cs = spelled ps ++ rest ∧ LeadTo ps rest ∧ e.Names rest ∧
        e.offset = n + Text.byteLength (spelled ps) := by
  constructor
  · intro failed
    fun_induction pieces n cs with
    | case1 n cs e' first =>
        cases failed
        obtain ⟨names, offset⟩ := firstPiece?_eq_error_iff.1 first
        exact ⟨[], cs, rfl, trivial, names, offset⟩
    | case2 => cases failed
    | case3 n cs p more first _ ih =>
        cases tail : pieces (n + Text.byteLength p.raw) more with
        | ok ps => rw [tail] at failed; cases failed
        | error e' =>
            rw [tail] at failed
            cases failed
            obtain ⟨ps, rest, rfl, lead, names, offset⟩ := ih tail
            obtain ⟨rfl, leads⟩ := firstPiece?_eq_some_iff.1 first
            refine ⟨p :: ps, rest, (List.append_assoc _ _ _).symm, ⟨leads, lead⟩, names, ?_⟩
            rw [offset, spelled_cons, Text.byteLength_append, Nat.add_assoc]
  · rintro ⟨ps, rest, rfl, lead, names, offset⟩
    have first := firstPiece?_eq_error_iff.2 ⟨names, offset⟩
    have here : pieces (n + Text.byteLength (spelled ps)) rest = .error e := by
      unfold pieces
      split <;> simp_all
    rw [pieces_behind lead, here]
    rfl

theorem parse_eq_error_iff {raw : String} :
    parse raw = .error e ↔ pieces 0 raw.toList = .error e := by
  unfold parse
  cases pieces 0 raw.toList <;> simp

theorem numbered_eq_error_iff {raw : String} :
    numbered raw = .error e ↔ pieces 0 raw.toList = .error e := by
  unfold numbered
  cases pieces 0 raw.toList <;> simp

/-- A text that holds a numbered placeholder fails there whatever stands behind the digit. -/
theorem QueryError.Names.before (names : (QueryError.numberedPlaceholder n).Names rest)
    (more : Text) : (QueryError.numberedPlaceholder n).Names (rest.take 2 ++ more) := by
  cases names with
  | numberedPlaceholder isDigit => exact .numberedPlaceholder isDigit

/-- An error is the first one of a text, and no more of the text has part in it than it tells. -/
structure QueryError.Leftmost (e : QueryError) (raw : String) (before rest : Text) : Prop where
  inside : e.offset < Text.byteLength raw.toList
  boundary : Text.splitAtByte? e.offset raw.toList = some (before, rest)
  cut : ∃ q, parse (String.ofList before) = .ok q
  names : e.Names rest
  numbering : numbered raw = .error e
  alike : ∀ offset, e = .numberedPlaceholder offset → ∀ other : String,
    before ++ rest.take 2 <+: other.toList → parse other = .error e ∧ numbered other = .error e

theorem QueryError.Names.ne_nil (names : e.Names rest) : rest ≠ [] := by
  cases names with
  | unterminated open_ => cases open_ <;> exact List.cons_ne_nil _ _
  | numberedPlaceholder => exact List.cons_ne_nil _ _

/-- Lexical errors are leftmost and local. -/
theorem parse_leftmost {raw : String} (failed : parse raw = .error e) :
    ∃ before rest, e.Leftmost raw before rest := by
  have failed := parse_eq_error_iff.1 failed
  obtain ⟨ps, rest, whole, lead, names, offset⟩ := pieces_eq_error_iff.1 failed
  rw [Nat.zero_add] at offset
  refine ⟨spelled ps, rest, ?_, ?_, ?_, names, numbered_eq_error_iff.2 failed, ?_⟩
  · obtain ⟨c, more, rfl⟩ := List.exists_cons_of_ne_nil names.ne_nil
    have size := c.utf8Size_pos
    rw [whole, offset, Text.byteLength_append, Text.byteLength_cons]
    omega
  · rw [whole, offset]
    exact Text.splitAtByte?_append _ _
  · exact ⟨_, parse_spelled lead.isCut⟩
  · rintro at_ rfl other ⟨more, begins⟩
    have same : (rest.take 2 ++ more).head? = rest.head? := by
      obtain ⟨c, tail, rfl⟩ := List.exists_cons_of_ne_nil names.ne_nil
      rfl
    have fails : pieces 0 other.toList = .error (.numberedPlaceholder at_) := by
      rw [← begins, List.append_assoc, pieces_eq_error_iff]
      exact ⟨ps, _, rfl, lead.of_head same, names.before more, by rw [offset, Nat.zero_add]⟩
    exact ⟨parse_eq_error_iff.2 fails, numbered_eq_error_iff.2 fails⟩

theorem parse_leftmost_numbered :
    parse "SELECT 'é ?1', a::int -- ?1\nWHERE k = ?1 AND n = 'open" =
        .error (.numberedPlaceholder 39) ∧
      ∃ before rest, (QueryError.numberedPlaceholder 39).Leftmost
        "SELECT 'é ?1', a::int -- ?1\nWHERE k = ?1 AND n = 'open" before rest := by
  have failed : parse "SELECT 'é ?1', a::int -- ?1\nWHERE k = ?1 AND n = 'open" =
      .error (.numberedPlaceholder 39) := by decide +kernel
  exact ⟨failed, parse_leftmost failed⟩

end SqlUnits.Query
