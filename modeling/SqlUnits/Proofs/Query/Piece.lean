import SqlUnits.Proofs.Query.Region
import SqlUnits.Query.Piece
/-!
Which lists of pieces are the pieces of a text. Whether a piece can stand somewhere depends on the
piece and on the next character alone. A list is cut when each of its pieces can stand before what
is written behind it; the cutting of a text yields the cut list that is written like it.
-/

namespace SqlUnits.Query

/-- The text of a list of pieces. -/
def spelled (ps : List Piece) : Text :=
  ps.flatMap Piece.raw

@[simp] theorem spelled_nil : spelled [] = [] := rfl

@[simp] theorem spelled_cons (p : Piece) (ps : List Piece) :
    spelled (p :: ps) = p.raw ++ spelled ps := rfl

/-- A piece that stands whole before a character, or before the end of the text. -/
inductive Piece.Leads (next : Option Char) : Piece → Prop
  | region {text : Text} (whole : Query.verbatim text = .region text [])
      (ends : EndsBefore text next) : Leads next (.verbatim text)
  | positional (noDigit : next.any Text.isDigit = false) : Leads next .positional
  | cast : Leads next (.verbatim [':', ':'])
  | colon (noColon : next ≠ some ':') (noName : next.any Text.isIdentChar = false) :
      Leads next (.verbatim [':'])
  | named {name : Text} (nonempty : name ≠ []) (all : ∀ c ∈ name, Text.isIdentChar c)
      (ends : next.any Text.isIdentChar = false) : Leads next (.named name)
  | other {c : Char} (plain : c ∉ ['?', ':', '\'', '"', '\x60'])
      (noLine : c = '-' → next ≠ some '-') (noBlock : c = '/' → next ≠ some '*') :
      Leads next (.verbatim [c])

/-- Each piece leads what is written behind it. -/
def IsCut : List Piece → Prop
  | [] => True
  | p :: ps => p.Leads (spelled ps).head? ∧ IsCut ps

theorem leads_of_plainPiece? {n : Nat} {cs rest : Text} {p : Piece}
    (plain : verbatim cs = .none) (read : plainPiece? n cs = .ok (some (p, rest))) :
    p.Leads rest.head? := by
  unfold plainPiece? at read
  split at read
  · simp at read
  case h_2 tail =>
    cases digit : tail.head?.any Text.isDigit with
    | true => simp [digit] at read
    | false =>
        simp only [digit, Bool.false_eq_true, if_false] at read
        cases read
        exact .positional digit
  · cases read
    exact .cast
  case h_4 tail noColon =>
    have stop := Text.head?_dropWhile Text.isIdentChar tail
    cases name : tail.takeWhile Text.isIdentChar with
    | nil =>
        simp only [name, List.isEmpty_nil, if_true] at read
        cases read
        have same := List.takeWhile_append_dropWhile (p := Text.isIdentChar) (l := rest)
        rw [name, List.nil_append] at same
        rw [same] at stop
        refine .colon ?_ stop
        intro colon
        cases rest with
        | nil => simp at colon
        | cons d rest => exact noColon rest (by rw [← Option.some.inj colon])
    | cons d ds =>
        simp only [name, List.isEmpty_cons, Bool.false_eq_true, if_false] at read
        cases read
        refine .named (by simp) ?_ stop
        rw [← name]
        exact Text.forall_mem_takeWhile _ _
  case h_5 c tail noMark noCast noColon =>
    cases read
    obtain ⟨noQuote, noLine, noBlock⟩ := verbatim_eq_none plain
    refine .other ?_ noLine noBlock
    simp_all

theorem firstPiece?_eq_none {n : Nat} {cs : Text} (read : firstPiece? n cs = .ok none) :
    cs = [] := by
  unfold firstPiece? at read
  cases h : verbatim cs with
  | unclosed construct => simp [h] at read
  | region text rest => simp [h] at read
  | none =>
      simp only [h] at read
      unfold plainPiece? at read
      split at read
      · rfl
      · split at read <;> simp at read
      · simp at read
      · dsimp only at read
        split at read <;> simp at read
      · simp at read

/-- The first piece of a text is the one that is written there and can stand there. -/
theorem firstPiece?_eq_some_iff {n : Nat} {cs rest : Text} {p : Piece} :
    firstPiece? n cs = .ok (some (p, rest)) ↔ cs = p.raw ++ rest ∧ p.Leads rest.head? := by
  constructor
  · intro read
    refine ⟨(firstPiece?_append read).1.symm, ?_⟩
    unfold firstPiece? at read
    cases h : verbatim cs with
    | unclosed construct => simp [h] at read
    | region text after =>
        simp only [h] at read
        cases read
        have ends := verbatim_endsBefore h
        refine .region ?_ ends
        have alone : verbatim (text ++ []) = .region text [] := verbatim_before h ends.atEnd
        simpa using alone
    | none =>
        simp only [h] at read
        exact leads_of_plainPiece? h read
  · rintro ⟨rfl, leads⟩
    cases leads with
    | region whole ends => simp [firstPiece?, Piece.raw, verbatim_before whole ends]
    | positional noDigit => simp [firstPiece?, Piece.raw, verbatim, plainPiece?, noDigit]
    | cast => simp [firstPiece?, Piece.raw, verbatim, plainPiece?]
    | colon noColon noName =>
        have empty := Text.takeWhile_stopped noName
        cases rest with
        | nil => simp [firstPiece?, Piece.raw, verbatim, plainPiece?]
        | cons d rest =>
            have other : d ≠ ':' := by simpa using noColon
            simp [firstPiece?, Piece.raw, verbatim, plainPiece?, other, empty]
    | @named name nonempty all ends =>
        have run := Text.takeWhile_run all ends
        have after := Text.dropWhile_run all ends
        cases name with
        | nil => exact absurd rfl nonempty
        | cons d ds =>
            have other : d ≠ ':' := by
              rintro rfl
              exact absurd (all ':' (by simp)) (by decide)
            rw [List.cons_append] at run after
            simp [firstPiece?, Piece.raw, verbatim, plainPiece?, other, run, after]
    | @other c plain noLine noBlock =>
        have noQuote : c ∉ ['\'', '"', '\x60'] := by simp_all
        have noMark : c ≠ '?' ∧ c ≠ ':' := by simp_all
        simp [firstPiece?, Piece.raw, verbatim_plain noQuote noLine noBlock, plainPiece?, noMark]

theorem isCut_of_pieces {n : Nat} {cs : Text} {ps : List Piece} (cut : pieces n cs = .ok ps) :
    IsCut ps ∧ cs = spelled ps := by
  fun_induction pieces n cs generalizing ps with
  | case1 => simp at cut
  | case2 n cs first =>
      cases cut
      exact ⟨trivial, firstPiece?_eq_none first⟩
  | case3 n cs piece rest first _ ih =>
      cases more : pieces (n + Text.byteLength piece.raw) rest with
      | error e => simp [more] at cut
      | ok tail =>
          rw [more] at cut
          cases cut
          obtain ⟨cutTail, rfl⟩ := ih more
          obtain ⟨rfl, leads⟩ := firstPiece?_eq_some_iff.1 first
          exact ⟨⟨leads, cutTail⟩, rfl⟩

theorem pieces_spelled {ps : List Piece} (cut : IsCut ps) (n : Nat) :
    pieces n (spelled ps) = .ok ps := by
  induction ps generalizing n with
  | nil =>
      unfold pieces
      rfl
  | cons p ps ih =>
      obtain ⟨leads, cutTail⟩ := cut
      have first := firstPiece?_eq_some_iff (n := n).2 ⟨spelled_cons p ps, leads⟩
      unfold pieces
      split
      case h_1 failed => rw [first] at failed; cases failed
      case h_2 none => rw [first] at none; cases none
      case h_3 piece rest found =>
          rw [first] at found
          cases found
          rw [ih cutTail]
          rfl

/-- The pieces of a text are the only cut list that is written like it. -/
theorem pieces_eq_ok_iff {n : Nat} {cs : Text} {ps : List Piece} :
    pieces n cs = .ok ps ↔ IsCut ps ∧ cs = spelled ps := by
  constructor
  · exact isCut_of_pieces
  · rintro ⟨cut, rfl⟩
    exact pieces_spelled cut n

end SqlUnits.Query
