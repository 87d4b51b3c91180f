import SqlUnits.Proofs.Query.Piece
import SqlUnits.Proofs.Text.Offset
import SqlUnits.Query.Parsed
/-!
Numbering the placeholders of a normal form, and reading the numbered text again. The normal form
comes back, with every placeholder at its offset, exactly if no placeholder touches an identifier
behind it and no placeholder stands behind an odd number of colons.
-/

namespace SqlUnits.Query

namespace Piece

/-- A piece without the name of its placeholder. -/
def unnamed : Piece → Piece
  | named _ => positional
  | p => p

@[simp] theorem raw_unnamed (p : Piece) : p.unnamed.raw = p.normal := by
  cases p <;> rfl

def IsUnnamed : Piece → Prop
  | named _ => False
  | _ => True

theorem isUnnamed_unnamed (p : Piece) : p.unnamed.IsUnnamed := by
  cases p <;> trivial

theorem Leads.raw_ne_nil {p : Piece} {next : Option Char} (leads : p.Leads next) :
    p.raw ≠ [] := by
  cases leads with
  | region whole ends => exact (verbatim_region whole).2
  | _ => simp [raw]

/-- A piece that stands before the mark of a placeholder stands before either mark, unless it is
a single colon. -/
theorem Leads.mark {p : Piece} {next next' : Option Char} (leads : p.Leads next)
    (before : next = some '?' ∨ next = some ':') (after : next' = some '?' ∨ next' = some ':')
    (apart : next' = some ':' → p ≠ .verbatim [':']) : p.Leads next' := by
  cases leads with
  | @region text whole ends =>
      refine .region whole ?_
      cases text with
      | nil => exact ends
      | cons c text =>
          unfold EndsBefore at ends ⊢
          split at ends
          case h_1 => rcases before with rfl | rfl <;> simp at ends
          case h_2 => trivial
          case h_3 quote tail _ _ same =>
              cases same
              have opening : c ≠ '?' ∧ c ≠ ':' := by
                constructor <;> rintro rfl <;> simp [Query.verbatim] at whole
              rcases after with rfl | rfl <;> simp [opening.1.symm, opening.2.symm]
          case h_4 => exact ends
  | positional => exact .positional (by rcases after with rfl | rfl <;> decide)
  | cast => exact .cast
  | colon =>
      refine .colon (fun colon => apart colon rfl) ?_
      rcases after with rfl | rfl <;> decide
  | named nonempty all =>
      exact .named nonempty all (by rcases after with rfl | rfl <;> decide)
  | other plain =>
      refine .other plain ?_ ?_ <;> intro _ <;> rcases after with rfl | rfl <;> decide

end Piece

theorem spelled_unnamed (ps : List Piece) :
    spelled (ps.map Piece.unnamed) = ps.flatMap Piece.normal := by
  simp [spelled, List.flatMap_map]

theorem normal_unnamed (ps : List Piece) :
    (ps.map Piece.unnamed).flatMap Piece.normal = ps.flatMap Piece.normal := by
  rw [List.flatMap_map]
  congr 1
  funext p
  cases p <;> rfl

theorem head?_unnamed (ps : List Piece) :
    (spelled (ps.map Piece.unnamed)).head? = (spelled ps).head? ∨
      ((spelled ps).head? = some ':' ∧ (spelled (ps.map Piece.unnamed)).head? = some '?') := by
  induction ps with
  | nil => exact .inl rfl
  | cons p ps ih =>
      cases p with
      | verbatim text =>
          cases text with
          | nil => exact ih
          | cons c text => exact .inl rfl
      | positional => exact .inl rfl
      | named name => exact .inr ⟨rfl, rfl⟩

theorem isCut_unnamed {ps : List Piece} (cut : IsCut ps) : IsCut (ps.map Piece.unnamed) := by
  induction ps with
  | nil => trivial
  | cons p ps ih =>
      obtain ⟨leads, cutTail⟩ := cut
      refine ⟨?_, ih cutTail⟩
      have head := head?_unnamed ps
      cases p with
      | named name =>
          refine .positional ?_
          cases leads with
          | named _ _ ends =>
              rcases head with same | ⟨_, mark⟩
              · rw [same]
                cases next : (spelled ps).head? with
                | none => rfl
                | some c =>
                    rw [next] at ends
                    simp only [Option.any_some, Text.isIdentChar, Bool.or_eq_false_iff] at ends
                    simpa using ends.1.2
              · rw [mark]
                decide
      | _ =>
          rcases head with same | ⟨old, new⟩
          · rw [← same] at leads
            exact leads
          · exact leads.mark (.inr old) (.inl new) (by simp [new])

/-- The pieces of a numbered text, unless a number runs into what is around it. -/
def numberedPieces (index : Nat) : List Piece → List Piece
  | [] => []
  | .positional :: ps => .named (toString index).toList :: numberedPieces (index + 1) ps
  | .named name :: ps => .named name :: numberedPieces (index + 1) ps
  | .verbatim text :: ps => .verbatim text :: numberedPieces index ps

theorem spelled_numberedPieces (index : Nat) (ps : List Piece) :
    spelled (numberedPieces index ps) = numberFrom index ps := by
  induction ps generalizing index with
  | nil => rfl
  | cons p ps ih => cases p <;> simp [numberedPieces, numberFrom, Piece.raw, ih]

theorem normal_numberedPieces (index : Nat) (ps : List Piece) :
    (numberedPieces index ps).flatMap Piece.normal = ps.flatMap Piece.normal := by
  induction ps generalizing index with
  | nil => rfl
  | cons p ps ih => cases p <;> simp [numberedPieces, Piece.normal, ih]

/-- No placeholder touches an identifier behind it, and none stands behind a single colon. -/
def Apart (afterColon : Bool) : List Piece → Prop
  | [] => True
  | .verbatim text :: ps => Apart (text == [':']) ps
  | _ :: ps =>
      afterColon = false ∧ (spelled ps).head?.any Text.isIdentChar = false ∧ Apart false ps

/-- Numbering changes the first character of a text only where that is a question mark. -/
theorem head?_numberedPieces {ps : List Piece} (cut : IsCut ps) (index : Nat) :
    (∃ tail, ps = .positional :: tail) ∨
      (spelled (numberedPieces index ps)).head? = (spelled ps).head? := by
  cases ps with
  | nil => exact .inr rfl
  | cons p ps =>
      cases p with
      | positional => exact .inl ⟨ps, rfl⟩
      | named name => exact .inr rfl
      | verbatim text =>
          cases text with
          | nil => exact absurd rfl cut.1.raw_ne_nil
          | cons c text => exact .inr rfl

theorem isCut_numberedPieces {ps : List Piece} {afterColon : Bool} (cut : IsCut ps)
    (unnamed : ∀ p ∈ ps, p.IsUnnamed) (apart : Apart afterColon ps) (index : Nat) :
    IsCut (numberedPieces index ps) := by
  induction ps generalizing index afterColon with
  | nil => trivial
  | cons p ps ih =>
      obtain ⟨leads, cutTail⟩ := cut
      have unnamedTail : ∀ q ∈ ps, q.IsUnnamed := fun q member => unnamed q (by simp [member])
      cases p with
      | named name => exact (unnamed (.named name) (by simp)).elim
      | positional =>
          obtain ⟨_, noName, apartTail⟩ := apart
          obtain ⟨nonempty, all⟩ := Text.number_isIdent index
          refine ⟨.named nonempty all ?_, ih cutTail unnamedTail apartTail _⟩
          rcases head?_numberedPieces cutTail (index + 1) with ⟨tail, rfl⟩ | same
          · rfl
          · rw [same]
            exact noName
      | verbatim text =>
          refine ⟨?_, ih cutTail unnamedTail apart _⟩
          rcases head?_numberedPieces cutTail index with ⟨tail, rfl⟩ | same
          · refine leads.mark (.inl rfl) (.inr rfl) fun _ single => ?_
            cases single
            exact absurd apart.1 (by decide)
          · rw [same]
            exact leads

/-- What is read first, and what is left, are determined by the text. -/
theorem Piece.Leads.unique {p q : Piece} {rest rest' : Text} (leads : p.Leads rest.head?)
    (leads' : q.Leads rest'.head?) (same : p.raw ++ rest = q.raw ++ rest') :
    p = q ∧ rest = rest' := by
  have first := firstPiece?_eq_some_iff (n := 0).2 ⟨rfl, leads⟩
  have first' := firstPiece?_eq_some_iff (n := 0).2 ⟨same, leads'⟩
  rw [first] at first'
  cases first'
  exact ⟨rfl, rfl⟩

/-- The normal form of a text begins with an identifier character only if the text does. -/
theorem head?_normal {ps : List Piece} (cut : IsCut ps)
    (noName : (spelled ps).head?.any Text.isIdentChar = false) :
    (ps.flatMap Piece.normal).head?.any Text.isIdentChar = false := by
  cases ps with
  | nil => rfl
  | cons p ps =>
      cases p with
      | positional => rfl
      | named name => rfl
      | verbatim text =>
          cases text with
          | nil => exact absurd rfl cut.1.raw_ne_nil
          | cons c text => exact noName

theorem numberFrom_head? {ps : List Piece} (cut : IsCut ps) (index : Nat) :
    (∃ tail, ps = .positional :: tail) ∨ (numberFrom index ps).head? = (spelled ps).head? := by
  rw [← spelled_numberedPieces]
  exact head?_numberedPieces cut index

/-- A number takes the identifier behind it along. -/
theorem first_number {m : Piece} {ms : List Piece} {index : Nat} {tail : Text}
    (cut : IsCut (m :: ms)) (again : spelled (m :: ms) = ':' :: (toString index).toList ++ tail) :
    m.normal = ['?'] ∧ spelled ms = tail.dropWhile Text.isIdentChar := by
  obtain ⟨nonempty, all⟩ := Text.number_isIdent index
  have first : (Piece.named ((toString index).toList ++ tail.takeWhile Text.isIdentChar)).Leads
      (tail.dropWhile Text.isIdentChar).head? := by
    refine .named (List.append_ne_nil_of_left_ne_nil nonempty _) ?_ (Text.head?_dropWhile _ _)
    intro c member
    rcases List.mem_append.1 member with number | more
    · exact all c number
    · exact Text.forall_mem_takeWhile _ _ c more
  obtain ⟨rfl, left⟩ := cut.1.unique first (by
    rw [← spelled_cons, again]
    simp [Piece.raw])
  exact ⟨rfl, left⟩

/-- Other text is read as before, unless it is a single colon before a number. -/
theorem first_verbatim {m : Piece} {ms ps : List Piece} {index : Nat} {text : Text}
    (leads : (Piece.verbatim text).Leads (spelled ps).head?) (cut : IsCut ps)
    (cutAgain : IsCut (m :: ms)) (again : spelled (m :: ms) = text ++ numberFrom index ps)
    (same : (m :: ms).flatMap Piece.normal = text ++ spelled ps) :
    ¬ (text = [':'] ∧ ∃ tail, ps = .positional :: tail) ∧ m = .verbatim text ∧
      spelled ms = numberFrom index ps := by
  by_cases single : text = [':'] ∧ ∃ tail, ps = .positional :: tail
  · obtain ⟨rfl, tail, rfl⟩ := single
    -- the colon and that of the number make a cast
    have first : (Piece.verbatim [':', ':']).Leads
        ((toString index).toList ++ numberFrom (index + 1) tail).head? := .cast
    obtain ⟨rfl, left⟩ := cutAgain.1.unique first again
    simp [Piece.normal, Piece.raw] at same
  · have first : (Piece.verbatim text).Leads (numberFrom index ps).head? := by
      rcases numberFrom_head? cut index with ⟨tail, rfl⟩ | head
      · exact leads.mark (.inl rfl) (.inr rfl) fun _ colon =>
          single ⟨Piece.verbatim.inj colon, tail, rfl⟩
      · rw [head]
        exact leads
    exact ⟨single, cutAgain.1.unique first again⟩

/-- If the pieces of a numbered text have the normal form that was numbered, no number ran into
what is around it. -/
theorem apart_of_normal {ps ms : List Piece} {afterColon : Bool} {index : Nat} (cut : IsCut ps)
    (unnamed : ∀ p ∈ ps, p.IsUnnamed) (cutAgain : IsCut ms)
    (again : spelled ms = numberFrom index ps) (same : ms.flatMap Piece.normal = spelled ps)
    (behind : afterColon = true → ∀ tail, ps ≠ .positional :: tail) : Apart afterColon ps := by
  induction ps generalizing ms index afterColon with
  | nil => trivial
  | cons p ps ih =>
      obtain ⟨leads, cutTail⟩ := cut
      have unnamedTail : ∀ q ∈ ps, q.IsUnnamed := fun q member => unnamed q (by simp [member])
      cases p with
      | named name => exact (unnamed (.named name) (by simp)).elim
      | positional =>
          cases ms with
          | nil => simp [numberFrom] at again
          | cons m ms =>
              obtain ⟨mark, left⟩ := first_number cutAgain again
              have sameTail : ms.flatMap Piece.normal = spelled ps := by
                simpa [mark, Piece.raw] using same
              have noName : (spelled ps).head?.any Text.isIdentChar = false := by
                rw [← sameTail]
                refine head?_normal cutAgain.2 ?_
                rw [left]
                exact Text.head?_dropWhile _ _
              have stop : (numberFrom (index + 1) ps).head?.any Text.isIdentChar = false := by
                rcases numberFrom_head? cutTail (index + 1) with ⟨tail, rfl⟩ | head
                · rfl
                · rw [head]
                  exact noName
              rw [Text.dropWhile_stopped stop] at left
              have afterNothing : afterColon = false :=
                Bool.eq_false_iff.2 fun colon => behind colon ps rfl
              exact ⟨afterNothing, noName,
                ih cutTail unnamedTail cutAgain.2 left sameTail (by simp)⟩
      | verbatim text =>
          cases ms with
          | nil => exact absurd (List.append_eq_nil_iff.1 again.symm).1 leads.raw_ne_nil
          | cons m ms =>
              obtain ⟨single, rfl, left⟩ := first_verbatim leads cutTail cutAgain again same
              refine ih cutTail unnamedTail cutAgain.2 left (List.append_cancel_left same) ?_
              intro colon tail positional
              exact single ⟨by simpa using colon, tail, positional⟩

/-- How many colons a text ends with. -/
def colonsAtEnd (cs : Text) : Nat :=
  (cs.reverse.takeWhile (· == ':')).length

theorem colonsAtEnd_colon (cs : Text) : colonsAtEnd (cs ++ [':']) = colonsAtEnd cs + 1 := by
  simp [colonsAtEnd]

theorem colonsAtEnd_other {cs text : Text} {c : Char} (last : text.getLast? = some c)
    (other : c ≠ ':') : colonsAtEnd (cs ++ text) = 0 := by
  obtain ⟨front, rfl⟩ := List.getLast?_eq_some_iff.1 last
  simp [colonsAtEnd, other]

/-- Whether the placeholder at an offset of a normal form touches no identifier behind it, and has
only pairs of colons before it. -/
def standsApart (sql : Text) (offset : Nat) : Bool :=
  match Text.splitAtByte? offset sql with
  | some (before, _ :: after) =>
      colonsAtEnd before % 2 == 0 && !after.head?.any Text.isIdentChar
  | _ => false

/-- The offsets of the placeholders in the normal form of pieces that begins at `out`. -/
def offsetsFrom (out : Nat) : List Piece → List Nat
  | [] => []
  | .verbatim text :: ps => offsetsFrom (out + Text.byteLength text) ps
  | _ :: ps => out :: offsetsFrom (out + 1) ps

theorem offset_placeholdersFrom (out raw : Nat) (ps : List Piece) :
    (placeholdersFrom out raw ps).map Placeholder.offset = offsetsFrom out ps := by
  induction ps generalizing out raw with
  | nil => rfl
  | cons p ps ih =>
      cases p <;> simp [placeholdersFrom, offsetsFrom, ih, Piece.normal] <;> rfl

theorem offsetsFrom_unnamed (out : Nat) (ps : List Piece) :
    offsetsFrom out (ps.map Piece.unnamed) = offsetsFrom out ps := by
  induction ps generalizing out with
  | nil => rfl
  | cons p ps ih => cases p <;> simp [offsetsFrom, Piece.unnamed, ih]

theorem offsetsFrom_numberedPieces (out index : Nat) (ps : List Piece) :
    offsetsFrom out (numberedPieces index ps) = offsetsFrom out ps := by
  induction ps generalizing out index with
  | nil => rfl
  | cons p ps ih => cases p <;> simp [offsetsFrom, numberedPieces, ih]

/-- The text before pieces ends with a single colon exactly if the last piece was one, as far as
that matters to what the pieces begin with. -/
structure Behind (before : Text) (afterColon : Bool) (ps : List Piece) : Prop where
  odd : (spelled ps).head? = some '?' ∨ (spelled ps).head? = some ':' →
    (colonsAtEnd before % 2 = 1 ↔ afterColon = true)
  noColon : afterColon = true → (spelled ps).head? ≠ some ':'

theorem Behind.even {before : Text} {afterColon : Bool} {ps : List Piece}
    (behind : Behind before afterColon ps) (colon : (spelled ps).head? = some ':') :
    colonsAtEnd before % 2 = 0 := by
  have single := behind.odd (.inr colon)
  have none := behind.noColon
  cases afterColon with
  | false =>
      have notOdd : ¬ colonsAtEnd before % 2 = 1 := by simpa using single
      omega
  | true => exact absurd colon (none rfl)

theorem Behind.verbatim {before text : Text} {afterColon : Bool} {ps : List Piece}
    (behind : Behind before afterColon (.verbatim text :: ps))
    (leads : (Piece.verbatim text).Leads (spelled ps).head?) :
    Behind (before ++ text) (text == [':']) ps := by
  cases leads with
  | region whole ends =>
      have single : (text == [':']) = false := by
        rw [beq_eq_false_iff_ne]
        rintro rfl
        simp [Query.verbatim] at whole
      refine ⟨fun mark => ?_, by simp [single]⟩
      rcases verbatim_getLast? whole with ⟨c, member, last⟩ | ⟨tail, rfl⟩
      · have other : c ≠ ':' := by
          rintro rfl
          exact absurd member (by decide)
        simp [colonsAtEnd_other last other, single]
      · -- a line comment reaches to the end of its line
        rcases ends with next | next <;> rw [next] at mark <;> simp at mark
  | cast =>
      have even := behind.even rfl
      have two : colonsAtEnd (before ++ [':', ':']) = colonsAtEnd before + 2 := by
        rw [show before ++ [':', ':'] = (before ++ [':']) ++ [':'] by simp, colonsAtEnd_colon,
          colonsAtEnd_colon]
      refine ⟨fun _ => ?_, by simp⟩
      rw [two, show ([':', ':'] == [':']) = false from rfl]
      simp only [Bool.false_eq_true, iff_false]
      omega
  | colon noColon noName =>
      have even := behind.even rfl
      refine ⟨fun _ => ?_, fun _ => noColon⟩
      rw [colonsAtEnd_colon, show ([':'] == [':']) = true from rfl]
      simp only [iff_true]
      omega
  | @other c plain =>
      have different : c ≠ ':' := by simp_all
      refine ⟨fun _ => ?_, by simp [different]⟩
      rw [colonsAtEnd_other rfl different]
      simp [different]

theorem standsApart_append (before after : Text) :
    standsApart (before ++ '?' :: after) (Text.byteLength before) = true ↔
      colonsAtEnd before % 2 = 0 ∧ after.head?.any Text.isIdentChar = false := by
  simp [standsApart, Text.splitAtByte?_append]

/-- Whether placeholders stand apart can be seen in the text. -/
theorem standsApart_iff_apart {ps : List Piece} {before : Text} {afterColon : Bool}
    (cut : IsCut ps) (unnamed : ∀ p ∈ ps, p.IsUnnamed) (behind : Behind before afterColon ps) :
    (∀ offset ∈ offsetsFrom (Text.byteLength before) ps,
      standsApart (before ++ spelled ps) offset = true) ↔ Apart afterColon ps := by
  induction ps generalizing before afterColon with
  | nil => simp [offsetsFrom, Apart]
  | cons p ps ih =>
      obtain ⟨leads, cutTail⟩ := cut
      have unnamedTail : ∀ q ∈ ps, q.IsUnnamed := fun q member => unnamed q (by simp [member])
      cases p with
      | named name => exact (unnamed (.named name) (by simp)).elim
      | verbatim text =>
          have more := ih cutTail unnamedTail (behind.verbatim leads)
          rw [Text.byteLength_append, List.append_assoc] at more
          exact more
      | positional =>
          have next : Behind (before ++ ['?']) false ps := by
            refine ⟨fun _ => ?_, by simp⟩
            rw [colonsAtEnd_other rfl (by decide)]
            simp
          have more := ih cutTail unnamedTail next
          have size : Text.byteLength (before ++ ['?']) = Text.byteLength before + 1 := by
            rw [Text.byteLength_append]
            rfl
          rw [size, List.append_assoc] at more
          have here := standsApart_append before (spelled ps)
          have single := behind.odd (.inl rfl)
          have even : colonsAtEnd before % 2 = 0 ↔ afterColon = false := by
            cases afterColon <;> simp at single ⊢ <;> omega
          simp only [offsetsFrom, List.mem_cons, forall_eq_or_imp, spelled_cons, Piece.raw, Apart]
          rw [← and_assoc, ← even, ← here, ← more]
          rfl

theorem parse_eq_ok {raw : String} {q : ParsedQuery} (parsed : parse raw = .ok q) :
    ∃ ps, IsCut ps ∧ raw.toList = spelled ps ∧ q = ParsedQuery.ofPieces ps := by
  unfold parse at parsed
  cases cut : pieces 0 raw.toList with
  | error e => simp [cut] at parsed
  | ok ps =>
      rw [cut] at parsed
      cases parsed
      obtain ⟨isCut, same⟩ := pieces_eq_ok_iff.1 cut
      exact ⟨ps, isCut, same, rfl⟩

theorem parse_spelled {ps : List Piece} (cut : IsCut ps) :
    parse (String.ofList (spelled ps)) = .ok (ParsedQuery.ofPieces ps) := by
  simp [parse, pieces_spelled cut]

theorem numbered_spelled {ps : List Piece} (cut : IsCut ps) :
    numbered (String.ofList (spelled ps)) = .ok (String.ofList (numberFrom 1 ps)) := by
  simp [numbered, pieces_spelled cut]

theorem ParsedQuery.positions_ofPieces (ps : List Piece) :
    (ParsedQuery.ofPieces ps).positions = offsetsFrom 0 ps :=
  offset_placeholdersFrom 0 0 ps

/-- A normal form is its own normal form, with as many placeholders. -/
theorem parse_normal {raw : String} {q : ParsedQuery} (parsed : parse raw = .ok q) :
    ∃ again, parse q.sql = .ok again ∧ again.sql = q.sql ∧ again.paramCount = q.paramCount := by
  obtain ⟨ps, cut, _, rfl⟩ := parse_eq_ok parsed
  have again := parse_spelled (isCut_unnamed cut)
  rw [spelled_unnamed] at again
  refine ⟨_, again, ?_, ?_⟩
  · exact congrArg String.ofList (normal_unnamed ps)
  · have count (ps : List Piece) :
        (ParsedQuery.ofPieces ps).paramCount = (offsetsFrom 0 ps).length := by
      rw [← ParsedQuery.positions_ofPieces, ParsedQuery.positions, List.length_map,
        ParsedQuery.paramCount]
    rw [count, count, offsetsFrom_unnamed]

/-- Every normal form can be numbered; reading the numbered text gives the normal form and the
offsets back exactly if every placeholder stands apart. -/
theorem parse_numbered_iff {raw : String} {q : ParsedQuery} (parsed : parse raw = .ok q) :
    ∃ text, numbered q.sql = .ok text ∧
      ((∃ again, parse text = .ok again ∧ again.sql = q.sql ∧ again.positions = q.positions) ↔
        ∀ offset ∈ q.positions, standsApart q.sql.toList offset = true) := by
  obtain ⟨ps, cutRaw, _, rfl⟩ := parse_eq_ok parsed
  let ns := ps.map Piece.unnamed
  have cut : IsCut ns := isCut_unnamed cutRaw
  have unnamed : ∀ p ∈ ns, p.IsUnnamed := by
    intro p member
    obtain ⟨q, _, rfl⟩ := List.mem_map.1 member
    exact Piece.isUnnamed_unnamed q
  have sql : (ParsedQuery.ofPieces ps).sql = String.ofList (spelled ns) := by
    rw [spelled_unnamed]
    rfl
  have positions : (ParsedQuery.ofPieces ps).positions = offsetsFrom 0 ns := by
    rw [ParsedQuery.positions_ofPieces, offsetsFrom_unnamed]
  have start : Behind [] false ns := ⟨fun _ => by simp [colonsAtEnd], by simp⟩
  have seen := standsApart_iff_apart cut unnamed start
  refine ⟨String.ofList (numberFrom 1 ns), by rw [sql]; exact numbered_spelled cut, ?_⟩
  rw [sql, positions, String.toList_ofList]
  refine Iff.trans ?_ seen.symm
  constructor
  · rintro ⟨again, parsedAgain, sameSql, _⟩
    obtain ⟨ms, cutAgain, textAgain, rfl⟩ := parse_eq_ok parsedAgain
    rw [String.toList_ofList] at textAgain
    refine apart_of_normal cut unnamed cutAgain textAgain.symm ?_ (by simp)
    exact String.ofList_injective sameSql
  · intro apart
    have cutAgain := isCut_numberedPieces cut unnamed apart 1
    refine ⟨ParsedQuery.ofPieces (numberedPieces 1 ns), ?_, ?_, ?_⟩
    · rw [← spelled_numberedPieces]
      exact parse_spelled cutAgain
    · rw [ParsedQuery.ofPieces, normal_numberedPieces, normal_unnamed, spelled_unnamed]
    · rw [ParsedQuery.positions_ofPieces, offsetsFrom_numberedPieces]

theorem parse_numbered_iff_select :
    ∃ q text, parse "SELECT id FROM t WHERE k = :k" = .ok q ∧ numbered q.sql = .ok text ∧
      ((∃ again, parse text = .ok again ∧ again.sql = q.sql ∧ again.positions = q.positions) ↔
        ∀ offset ∈ q.positions, standsApart q.sql.toList offset = true) := by
  have parsed : parse "SELECT id FROM t WHERE k = :k" =
      .ok ⟨"SELECT id FROM t WHERE k = ?", [⟨27, some "k", ⟨27, 29⟩⟩]⟩ := by decide +kernel
  obtain ⟨text, written, same⟩ := parse_numbered_iff parsed
  exact ⟨_, text, parsed, written, same⟩

/-- Behind a colon the number reads as a cast, and the placeholder is lost. -/
theorem numbered_after_colon :
    parse "SELECT a[1:?]" = .ok ⟨"SELECT a[1:?]", [⟨11, none, ⟨11, 12⟩⟩]⟩ ∧
      numbered "SELECT a[1:?]" = .ok "SELECT a[1::1]" ∧
      parse "SELECT a[1::1]" = .ok ⟨"SELECT a[1::1]", []⟩ := by
  refine ⟨?_, ?_, ?_⟩ <;> decide +kernel

end SqlUnits.Query
