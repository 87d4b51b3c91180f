import SqlUnits.Access.QueryPiece
import SqlUnits.Proofs.Query.Framing
/-!
Pieces put behind one another. Each placeholder keeps its parameter, unless a line comment takes it
in. Then no more is read of the next piece than what stands behind its first line feed.
-/

namespace SqlUnits.QueryPiece

open Query

/-- One parameter for each placeholder. -/
def Balanced (p : QueryPiece) : Prop :=
  p.placeholderCount = .ok p.params.length

def EndsInComment (p : QueryPiece) : Prop :=
  Query.EndsInComment p.sql.toList

/-- What a comment before a piece leaves of it. -/
def behindLine (p : QueryPiece) : QueryPiece :=
  { p with sql := String.ofList (p.sql.toList.dropWhile (· ≠ '\n')) }

variable {p q : QueryPiece} {ps : List Piece} {n : Nat}

theorem placeholderCount_eq_ok :
    p.placeholderCount = .ok n ↔ ∃ a, parse p.sql = .ok a ∧ a.paramCount = n := by
  unfold placeholderCount
  cases parse p.sql with
  | error e => exact ⟨nofun, nofun⟩
  | ok a =>
      refine ⟨fun same => ⟨a, rfl, Except.ok.inj same⟩, ?_⟩
      rintro ⟨_, ⟨⟩, same⟩
      exact congrArg Except.ok same

theorem parse_eq_ok_iff {a : ParsedQuery} :
    parse p.sql = .ok a ↔
      ∃ ps, IsCut ps ∧ p.sql.toList = spelled ps ∧ a = ParsedQuery.ofPieces ps := by
  refine ⟨parse_eq_ok, ?_⟩
  rintro ⟨ps, cut, written, rfl⟩
  rw [← parse_spelled cut, ← written, String.ofList_toList]

theorem paramCount_append (ps qs : List Piece) :
    (ParsedQuery.ofPieces (ps ++ qs)).paramCount =
      (ParsedQuery.ofPieces ps).paramCount + (ParsedQuery.ofPieces qs).paramCount := by
  rw [ParsedQuery.ofPieces_append]
  simp [ParsedQuery.paramCount]

/-- Behind pieces that lead to the rest of it, a text has the placeholders of the rest. -/
theorem placeholderCount_behind {rest : Text} (lead : LeadTo ps rest)
    (written : p.sql.toList = spelled ps ++ rest) :
    p.placeholderCount = .ok n ↔
      ∃ m, placeholderCount ⟨String.ofList rest, []⟩ = .ok m ∧
        n = (ParsedQuery.ofPieces ps).paramCount + m := by
  have whole : p.sql = String.ofList (spelled ps ++ rest) := by
    rw [← written, String.ofList_toList]
  have counted : p.placeholderCount =
      (fun rs => (ParsedQuery.ofPieces ps).paramCount + (ParsedQuery.ofPieces rs).paramCount) <$>
        pieces (Text.byteLength (spelled ps)) rest := by
    unfold placeholderCount
    rw [whole, parse_behind lead]
    cases pieces (Text.byteLength (spelled ps)) rest with
    | error e => rfl
    | ok rs => exact congrArg Except.ok (paramCount_append ps rs)
  rw [counted]
  constructor
  · intro same
    cases cut : pieces (Text.byteLength (spelled ps)) rest with
    | error e =>
        rw [cut] at same
        cases same
    | ok rs =>
        rw [cut] at same
        cases same
        obtain ⟨isCut, rfl⟩ := pieces_eq_ok_iff.1 cut
        exact ⟨_, placeholderCount_eq_ok.2 ⟨_, parse_spelled isCut, rfl⟩, rfl⟩
  · rintro ⟨m, same, rfl⟩
    obtain ⟨a, parsed, rfl⟩ := placeholderCount_eq_ok.1 same
    obtain ⟨rs, isCut, spells, rfl⟩ := parse_eq_ok parsed
    rw [String.toList_ofList] at spells
    rw [pieces_eq_ok_iff.2 ⟨isCut, spells⟩]
    rfl

/-- Pieces are put together with a blank between them, unless one of them has no text or the first
one ends with a blank. -/
theorem append_sql (p q : QueryPiece) :
    ∃ gap, (p.append q).sql = p.sql ++ gap ++ q.sql ∧
      (gap = " " ∨ gap = "" ∧
        (p.sql = "" ∨ q.sql = "" ∨
          ∃ c, p.sql.toList.getLast? = some c ∧ Text.isBlank c = true)) := by
  unfold append
  dsimp only
  split
  · next none =>
    refine ⟨"", by rw [String.append_empty], .inr ⟨rfl, ?_⟩⟩
    simpa only [Bool.or_eq_true, String.isEmpty_iff, Option.any_eq_true, or_assoc] using none
  · exact ⟨" ", rfl, .inl rfl⟩

/-- A piece that does not end in a comment keeps its pieces before what is put behind it. -/
theorem leadTo_gap {gap : String} (cut : IsCut ps) (written : p.sql.toList = spelled ps)
    (noComment : ¬p.EndsInComment)
    (apart : gap = " " ∨ gap = "" ∧
      (p.sql = "" ∨ q.sql = "" ∨ ∃ c, p.sql.toList.getLast? = some c ∧ Text.isBlank c = true)) :
    LeadTo ps (gap.toList ++ q.sql.toList) := by
  unfold EndsInComment at noComment
  rw [written] at noComment apart
  rcases apart with rfl | ⟨rfl, none | none | ⟨c, last, blank⟩⟩
  · exact cut.leadTo_delimiter noComment (delimits_of_isBlank rfl) _
  · have empty : ps = [] := by_contra fun some_ =>
      cut.spelled_ne_nil some_ (by rw [← written, none]; rfl)
    rw [empty]
    trivial
  · rw [none]
    exact leadTo_nil.2 cut
  · exact cut.leadTo_any noComment last blank _

/-- The pieces of a piece behind another one follow those of the other one. -/
theorem append_pieces {qs : List Piece} (cut : IsCut ps) (written : p.sql.toList = spelled ps)
    (noComment : ¬p.EndsInComment) (cutNext : IsCut qs) (writtenNext : q.sql.toList = spelled qs) :
    ∃ gap, (p.append q).sql = p.sql ++ gap ++ q.sql ∧
      ∃ gaps, (gap = "" ∧ gaps = [] ∨ gap = " " ∧ gaps = [.verbatim [' ']]) ∧
        IsCut (ps ++ gaps ++ qs) ∧ (p.append q).sql.toList = spelled (ps ++ gaps ++ qs) := by
  obtain ⟨gap, whole, apart⟩ := append_sql p q
  have lead := leadTo_gap cut written noComment apart
  have blank : LeadTo [.verbatim [' ']] (spelled qs) := ⟨.other (by decide) nofun nofun, trivial⟩
  rw [writtenNext] at lead
  obtain ⟨gaps, either, leadGap, spells⟩ :
      ∃ gaps, (gap = "" ∧ gaps = [] ∨ gap = " " ∧ gaps = [.verbatim [' ']]) ∧
        LeadTo gaps (spelled qs) ∧ gap.toList = spelled gaps := by
    rcases apart with rfl | ⟨rfl, -⟩
    · exact ⟨_, .inr ⟨rfl, rfl⟩, blank, rfl⟩
    · exact ⟨_, .inl ⟨rfl, rfl⟩, trivial, rfl⟩
  refine ⟨gap, whole, gaps, either, leadTo_nil.1 (leadTo_append.2 ⟨?_, leadTo_nil.2 cutNext⟩), ?_⟩
  · rw [List.append_nil, leadTo_append, ← spells]
    exact ⟨lead, leadGap⟩
  · rw [whole, String.toList_append, String.toList_append, written, spells, writtenNext,
      spelled_append, spelled_append]

/-- The normal form of a piece behind another one follows that of the other one, and so do the
placeholders. -/
theorem parse_append {a b : ParsedQuery} (noComment : ¬p.EndsInComment)
    (first : parse p.sql = .ok a) (second : parse q.sql = .ok b) :
    ∃ gap, (p.append q).sql = p.sql ++ gap ++ q.sql ∧
      parse (p.append q).sql = .ok
        ⟨a.sql ++ gap ++ b.sql, a.placeholders ++ b.placeholders.map
          (·.moved (Text.byteLength (a.sql ++ gap).toList)
            (Text.byteLength (p.sql ++ gap).toList))⟩ := by
  obtain ⟨ps, cut, written, rfl⟩ := parse_eq_ok first
  obtain ⟨qs, cutNext, writtenNext, rfl⟩ := parse_eq_ok second
  obtain ⟨gap, whole, gaps, either, cutAll, writtenAll⟩ :=
    append_pieces cut written noComment cutNext writtenNext
  obtain ⟨normal, none, spells⟩ : (ParsedQuery.ofPieces gaps).sql = gap ∧
      (ParsedQuery.ofPieces gaps).placeholders = [] ∧ spelled gaps = gap.toList := by
    rcases either with ⟨rfl, rfl⟩ | ⟨rfl, rfl⟩ <;> exact ⟨rfl, rfl, rfl⟩
  refine ⟨gap, whole, parse_eq_ok_iff.2 ⟨_, cutAll, writtenAll, ?_⟩⟩
  rw [ParsedQuery.ofPieces_append, ParsedQuery.ofPieces_append, none, normal, List.map_nil,
    List.append_nil, spelled_append, ← written, spells, ← String.toList_append]

theorem placeholderCount_append {m : Nat} (noComment : ¬p.EndsInComment)
    (first : p.placeholderCount = .ok m) (second : q.placeholderCount = .ok n) :
    (p.append q).placeholderCount = .ok (m + n) := by
  obtain ⟨a, parsed, rfl⟩ := placeholderCount_eq_ok.1 first
  obtain ⟨b, parsedNext, rfl⟩ := placeholderCount_eq_ok.1 second
  obtain ⟨gap, -, parsedAll⟩ := parse_append noComment parsed parsedNext
  refine placeholderCount_eq_ok.2 ⟨_, parsedAll, ?_⟩
  simp [ParsedQuery.paramCount]

/-- No comment is left open by a piece behind another one if neither leaves one open. -/
theorem append_endsInComment {m : Nat} (first : p.placeholderCount = .ok m)
    (second : q.placeholderCount = .ok n) (noComment : ¬p.EndsInComment)
    (noCommentNext : ¬q.EndsInComment) : ¬(p.append q).EndsInComment := by
  obtain ⟨a, parsed, -⟩ := placeholderCount_eq_ok.1 first
  obtain ⟨b, parsedNext, -⟩ := placeholderCount_eq_ok.1 second
  obtain ⟨ps, cut, written, -⟩ := parse_eq_ok parsed
  obtain ⟨qs, cutNext, writtenNext, -⟩ := parse_eq_ok parsedNext
  obtain ⟨gap, -, gaps, either, cutAll, writtenAll⟩ :=
    append_pieces cut written noComment cutNext writtenNext
  unfold EndsInComment at *
  rw [written, cut.endsInComment] at noComment
  rw [writtenNext, cutNext.endsInComment] at noCommentNext
  rw [writtenAll, cutAll.endsInComment]
  rintro ⟨inside, last⟩
  rw [List.getLast?_append, List.getLast?_append, Option.or_eq_some_iff,
    Option.or_eq_some_iff] at last
  rcases last with last | ⟨-, last | ⟨-, last⟩⟩
  · exact noCommentNext ⟨inside, last⟩
  · rcases either with ⟨-, rfl⟩ | ⟨-, rfl⟩ <;> cases last
  · exact noComment ⟨inside, last⟩

/-- Behind a comment only the placeholders of the next lines are read. -/
theorem placeholderCount_behind_comment {m : Nat} (comment : p.EndsInComment)
    (first : p.placeholderCount = .ok m) :
    (p.append q).placeholderCount = .ok n ↔
      ∃ k, q.behindLine.placeholderCount = .ok k ∧ n = m + k := by
  obtain ⟨a, parsed, rfl⟩ := placeholderCount_eq_ok.1 first
  obtain ⟨ps, cut, written, rfl⟩ := parse_eq_ok parsed
  obtain ⟨gap, whole, apart⟩ := append_sql p q
  have oneLine : ∀ c ∈ gap.toList, decide (c ≠ '\n') = true := by
    rcases apart with rfl | ⟨rfl, -⟩
    · exact List.all_eq_true.1 (by decide)
    · nofun
  unfold EndsInComment at comment
  rw [written] at comment
  obtain ⟨front, inside, rfl, lead⟩ := cut.leadTo_line comment (gap.toList ++ q.sql.toList)
  rw [List.takeWhile_append_of_pos oneLine, List.dropWhile_append_of_pos oneLine] at lead
  have text : (p.append q).sql.toList =
      spelled (front ++ [.verbatim ('-' :: '-' :: (inside ++ (gap.toList ++
        q.sql.toList.takeWhile (· ≠ '\n'))))]) ++ q.sql.toList.dropWhile (· ≠ '\n') := by
    rw [whole, String.toList_append, String.toList_append, written]
    simp [spelled_append, Piece.raw, List.takeWhile_append_dropWhile]
  rw [placeholderCount_behind lead text, paramCount_append, paramCount_append]
  exact Iff.rfl

/-- A piece that reads as one piece and then another: the placeholders of the other one follow those
of the one, each where its text has come to stand, and so do the parameters. -/
structure Composes (p q whole : QueryPiece) : Prop where
  params : whole.params = p.params ++ q.params
  placeholders : ∃ a b gap, parse p.sql = .ok a ∧ parse q.sql = .ok b ∧
    whole.sql = p.sql ++ gap ++ q.sql ∧
    parse whole.sql = .ok
      ⟨a.sql ++ gap ++ b.sql, a.placeholders ++ b.placeholders.map
        (·.moved (Text.byteLength (a.sql ++ gap).toList) (Text.byteLength (p.sql ++ gap).toList))⟩

theorem Balanced.composes (balanced : p.Balanced) (next : q.Balanced)
    (noComment : ¬p.EndsInComment) : Composes p q (p.append q) := by
  obtain ⟨a, parsed, -⟩ := placeholderCount_eq_ok.1 balanced
  obtain ⟨b, parsedNext, -⟩ := placeholderCount_eq_ok.1 next
  obtain ⟨gap, whole, parsedAll⟩ := parse_append noComment parsed parsedNext
  exact ⟨rfl, a, b, gap, parsed, parsedNext, whole, parsedAll⟩

theorem Balanced.append_iff (balanced : p.Balanced) (next : q.Balanced) :
    (p.append q).Balanced ↔ (p.EndsInComment → q.behindLine.Balanced) := by
  have count : (p.append q).params.length = p.params.length + q.params.length :=
    List.length_append
  by_cases comment : p.EndsInComment
  · unfold Balanced
    rw [placeholderCount_behind_comment comment balanced, count]
    constructor
    · rintro ⟨k, counted, same⟩ -
      rw [counted, ← Nat.add_left_cancel same]
      rfl
    · intro counted
      exact ⟨_, counted comment, rfl⟩
  · refine ⟨fun _ again => absurd again comment, fun _ => ?_⟩
    unfold Balanced
    rw [count]
    exact placeholderCount_append comment balanced next

/-- A chain stays in balance as long as no comment is left open before its last piece. -/
theorem Balanced.chain {more : List QueryPiece} (balanced : p.Balanced)
    (all : ∀ q ∈ more, q.Balanced) (noComment : ∀ q ∈ (p :: more).dropLast, ¬q.EndsInComment) :
    (more.foldl append p).Balanced := by
  induction more generalizing p with
  | nil => exact balanced
  | cons q more ih =>
      obtain ⟨next, rest⟩ := List.forall_mem_cons.1 all
      rw [List.dropLast_cons_cons] at noComment
      obtain ⟨closed, closedRest⟩ := List.forall_mem_cons.1 noComment
      have both := (balanced.append_iff next).2 fun open_ => absurd open_ closed
      refine ih both rest ?_
      cases more with
      | nil => nofun
      | cons r more =>
          rw [List.dropLast_cons_cons] at closedRest ⊢
          obtain ⟨closedNext, closedMore⟩ := List.forall_mem_cons.1 closedRest
          have closedBoth := append_endsInComment balanced next closed closedNext
          exact List.forall_mem_cons.2 ⟨closedBoth, closedMore⟩

theorem foldl_append_params (p : QueryPiece) (more : List QueryPiece) :
    (more.foldl append p).params = (p :: more).flatMap (·.params) := by
  induction more generalizing p with
  | nil => simp
  | cons q more ih =>
      rw [List.foldl_cons, ih]
      simp [append]

/-- Pieces that have one parameter for each placeholder have so together, the parameters and the
placeholders of the first one first, unless the first one ends in a line comment. Then they have so
exactly if the second one would without the text before its first line feed. A chain has so if no
piece but the last one ends in a comment. -/
theorem append_balanced (p q : QueryPiece) (more : List QueryPiece) (balanced : p.Balanced)
    (next : q.Balanced) (others : ∀ r ∈ more, r.Balanced) :
    ((p.append q).Balanced ↔ (p.EndsInComment → q.behindLine.Balanced)) ∧
      (¬p.EndsInComment → Composes p q (p.append q)) ∧
      ((∀ r ∈ (p :: q :: more).dropLast, ¬r.EndsInComment) →
        ((q :: more).foldl append p).Balanced ∧
        ((q :: more).foldl append p).params = (p :: q :: more).flatMap (·.params)) := by
  refine ⟨balanced.append_iff next, balanced.composes next, fun noComment => ?_⟩
  exact ⟨balanced.chain (List.forall_mem_cons.2 ⟨next, others⟩) noComment,
    foldl_append_params p (q :: more)⟩

/-- The last piece of a chain may end in a comment. -/
theorem append_balanced_select :
    let p : QueryPiece := ⟨"SELECT id FROM t WHERE k = ?", [⟨.int 5, .int⟩]⟩
    let q : QueryPiece := ⟨"AND name = ?", [⟨.text "ann", .string⟩]⟩
    let r : QueryPiece := ⟨"LIMIT ? -- at most", [⟨.int 1, .int⟩]⟩
    Composes p q (p.append q) ∧ ((p.append q).append r).Balanced ∧
      ((p.append q).append r).params = p.params ++ q.params ++ r.params := by
  intro p q r
  have first : p.Balanced := by
    unfold Balanced
    decide +kernel
  have second : q.Balanced := by
    unfold Balanced
    decide +kernel
  have third : r.Balanced := by
    unfold Balanced
    decide +kernel
  have noComment : ¬p.EndsInComment := fun ends =>
    absurd (EndsInComment.dashes ends) (by decide +kernel)
  have noCommentNext : ¬q.EndsInComment := fun ends =>
    absurd (EndsInComment.dashes ends) (by decide +kernel)
  obtain ⟨_, pair, chain⟩ := append_balanced p q [r] first second (by simpa using third)
  obtain ⟨together, params⟩ := chain
    (List.forall_mem_cons.2 ⟨noComment, by simpa using noCommentNext⟩)
  exact ⟨pair noComment, together, params⟩

/-- A comment at the end of a piece takes in a placeholder of the next one. -/
theorem append_after_comment :
    let p : QueryPiece := ⟨"SELECT id FROM t WHERE k = ? -- by key", [⟨.int 5, .int⟩]⟩
    let q : QueryPiece := ⟨"AND name = ?", [⟨.text "ann", .string⟩]⟩
    p.Balanced ∧ q.Balanced ∧ (p.append q).placeholderCount = .ok 1 ∧
      (p.append q).params.length = 2 := by
  refine ⟨?_, ?_, ?_, rfl⟩
  · unfold Balanced
    decide +kernel
  · unfold Balanced
    decide +kernel
  · decide +kernel

end SqlUnits.QueryPiece
