import SqlUnits.Proofs.Edit.Splice
import SqlUnits.Proofs.Query.Block
import SqlUnits.Proofs.Query.Numbering
/-!
Where the placeholders of a parsed query were written. The pieces of a text are in step with the
bytes of the text and with those of its normal form, so a placeholder can be found in either, and
putting the ones into the places of the others leads from each text to the other.
-/

namespace SqlUnits

namespace Query

/-- The quoted regions and comments of a text that begins at a byte offset. -/
def regionsFrom (offset : Nat) (cs : Text) : List Span :=
  match h : lexeme cs with
  | .done => []
  | .unclosed _ => []
  | .region text rest =>
      have := lexeme_region_shorter h
      ⟨offset, offset + Text.byteLength text⟩ ::
        regionsFrom (offset + Text.byteLength text) rest
  | .char c rest =>
      have := lexeme_char_shorter h
      regionsFrom (offset + c.utf8Size) rest
termination_by cs.length

theorem regionsFrom_region {cs text rest : Text} (read : lexeme cs = .region text rest)
    (offset : Nat) :
    regionsFrom offset cs = ⟨offset, offset + Text.byteLength text⟩ ::
      regionsFrom (offset + Text.byteLength text) rest := by
  rw [regionsFrom]
  split <;> simp_all

theorem regionsFrom_char {c : Char} {cs rest : Text} (read : lexeme cs = .char c rest)
    (offset : Nat) : regionsFrom offset cs = regionsFrom (offset + c.utf8Size) rest := by
  rw [regionsFrom]
  split <;> simp_all

/-- Characters that open no region whatever follows them are passed over. -/
theorem regionsFrom_plain {cs : Text} (plain : ∀ c ∈ cs, c ∉ ['\'', '"', '\x60', '-', '/'])
    (rest : Text) (offset : Nat) :
    regionsFrom offset (cs ++ rest) = regionsFrom (offset + Text.byteLength cs) rest := by
  induction cs generalizing offset with
  | nil => rfl
  | cons c cs ih =>
      have first := plain c (.head cs)
      have none : verbatim (c :: (cs ++ rest)) = .none := by
        apply verbatim_plain <;> simp_all
      rw [List.cons_append, regionsFrom_char (lexeme_of_char none),
        ih (fun d member => plain d (.tail c member)), Text.byteLength_cons, Nat.add_assoc]

theorem regionsFrom_ge {offset : Nat} {cs : Text} :
    ∀ region ∈ regionsFrom offset cs, offset ≤ region.start := by
  fun_induction regionsFrom offset cs with
  | case1 | case2 => simp
  | case3 offset cs text rest _ _ ih =>
      intro region member
      rcases List.mem_cons.1 member with rfl | later
      · exact Nat.le_refl offset
      · exact Nat.le_of_add_right_le (ih region later)
  | case4 offset cs c rest _ _ ih =>
      intro region member
      exact Nat.le_of_add_right_le (ih region member)

namespace Piece

def name? : Piece → Option String
  | named name => some (String.ofList name)
  | _ => none

/-- A piece as a placeholder, at its offsets in the normal form and in the text as written. -/
def placeholder (out raw : Nat) (p : Piece) : Placeholder where
  offset := out
  name := p.name?
  span := ⟨raw, raw + Text.byteLength p.raw⟩

theorem normal_of_isPlaceholder {p : Piece} (mark : p.isPlaceholder) : p.normal = ['?'] := by
  cases p with
  | verbatim text => cases mark
  | _ => rfl

theorem normal_eq_raw {p : Piece} (kept : p.isPlaceholder = false) : p.normal = p.raw := by
  cases p with
  | verbatim text => rfl
  | _ => cases kept

theorem byteLength_raw_pos {p : Piece} (mark : p.isPlaceholder) :
    0 < Text.byteLength p.raw := by
  cases p with
  | verbatim text => cases mark
  | positional => exact Nat.one_pos
  | named name => exact Nat.lt_of_lt_of_le Nat.one_pos (Nat.le_add_right _ _)

end Piece

theorem placeholdersFrom_mark {p : Piece} (mark : p.isPlaceholder) (out raw : Nat)
    (ps : List Piece) :
    placeholdersFrom out raw (p :: ps) = p.placeholder out raw ::
      placeholdersFrom (out + 1) (raw + Text.byteLength p.raw) ps := by
  cases p with
  | verbatim text => cases mark
  | _ => rfl

theorem placeholdersFrom_kept {p : Piece} (kept : p.isPlaceholder = false) (out raw : Nat)
    (ps : List Piece) :
    placeholdersFrom out raw (p :: ps) =
      placeholdersFrom (out + Text.byteLength p.raw) (raw + Text.byteLength p.raw) ps := by
  cases p with
  | verbatim text => rfl
  | _ => cases kept

/-- A placeholder of pieces is one of the pieces, behind those that are written before it. -/
theorem mem_placeholdersFrom {out raw : Nat} {ps : List Piece} {placeholder : Placeholder}
    (member : placeholder ∈ placeholdersFrom out raw ps) :
    ∃ before p after, ps = before ++ p :: after ∧ p.isPlaceholder ∧
      placeholder = p.placeholder (out + Text.byteLength (before.flatMap Piece.normal))
        (raw + Text.byteLength (spelled before)) := by
  induction ps generalizing out raw with
  | nil => cases member
  | cons p ps ih =>
      cases mark : p.isPlaceholder with
      | false =>
          rw [placeholdersFrom_kept mark] at member
          obtain ⟨before, q, after, rfl, isMark, rfl⟩ := ih member
          refine ⟨p :: before, q, after, rfl, isMark, ?_⟩
          simp [Piece.normal_eq_raw mark, Nat.add_assoc]
      | true =>
          rw [placeholdersFrom_mark mark] at member
          rcases List.mem_cons.1 member with rfl | later
          · exact ⟨[], p, ps, rfl, mark, rfl⟩
          · obtain ⟨before, q, after, rfl, isMark, rfl⟩ := ih later
            refine ⟨p :: before, q, after, rfl, isMark, ?_⟩
            have size : Text.byteLength ['?'] = 1 := rfl
            rw [List.flatMap_cons, Piece.normal_of_isPlaceholder mark, Text.byteLength_append, size,
              spelled_cons, Text.byteLength_append, Nat.add_assoc, Nat.add_assoc]

theorem IsCut.leads {before after : List Piece} {p : Piece}
    (cut : IsCut (before ++ p :: after)) : p.Leads (spelled after).head? := by
  induction before with
  | nil => exact cut.1
  | cons q before ih => exact ih cut.2

theorem placeholdersFrom_ge {out raw : Nat} {ps : List Piece} :
    ∀ p ∈ placeholdersFrom out raw ps, raw ≤ p.span.start := by
  intro p member
  obtain ⟨before, q, after, _, _, rfl⟩ := mem_placeholdersFrom member
  exact Nat.le_add_right _ _

theorem placeholdersFrom_pairwise (out raw : Nat) (ps : List Piece) :
    (placeholdersFrom out raw ps).Pairwise fun a b => a.span.stop ≤ b.span.start := by
  induction ps generalizing out raw with
  | nil => exact .nil
  | cons p ps ih =>
      cases mark : p.isPlaceholder with
      | false =>
          rw [placeholdersFrom_kept mark]
          exact ih _ _
      | true =>
          rw [placeholdersFrom_mark mark]
          exact List.pairwise_cons.2 ⟨placeholdersFrom_ge, ih _ _⟩

/-- What the placeholders before it were longer by is what a placeholder is moved by. -/
theorem placeholdersFrom_moved {out moved k : Nat} {ps : List Piece} {p : Placeholder}
    (cut : IsCut ps) (found : (placeholdersFrom out (out + moved) ps)[k]? = some p) :
    p.offset + (moved + total (((placeholdersFrom out (out + moved) ps).take k).map
      fun a => a.span.stop - a.span.start - 1)) = p.span.start := by
  induction ps generalizing out moved k with
  | nil => simp [placeholdersFrom] at found
  | cons q ps ih =>
      cases mark : q.isPlaceholder with
      | false =>
          rw [placeholdersFrom_kept mark, Nat.add_right_comm] at found ⊢
          exact ih cut.2 found
      | true =>
          rw [placeholdersFrom_mark mark] at found ⊢
          cases k with
          | zero =>
              cases found
              rfl
          | succ k =>
              have longer := q.byteLength_raw_pos mark
              have step : out + moved + Text.byteLength q.raw =
                  out + 1 + (moved + (Text.byteLength q.raw - 1)) := by omega
              rw [step] at found ⊢
              have more := ih cut.2 found
              simp only [List.take_succ_cons, List.map_cons, total_cons, Piece.placeholder]
              omega

theorem regionsFrom_placeholder {p : Piece} {rest : Text} (leads : p.Leads rest.head?)
    (mark : p.isPlaceholder) (offset : Nat) :
    regionsFrom offset (p.raw ++ rest) =
      regionsFrom (offset + Text.byteLength p.raw) rest := by
  refine regionsFrom_plain ?_ rest offset
  cases leads with
  | positional => exact List.forall_mem_singleton.2 (by decide)
  | named _ all =>
      intro c member opening
      rcases List.mem_cons.1 member with rfl | name
      · exact absurd opening (by decide)
      · have isName := all c name
        simp only [List.mem_cons, List.not_mem_nil, or_false] at opening
        rcases opening with rfl | rfl | rfl | rfl | rfl <;> exact absurd isName (by decide)
  | _ => cases mark

/-- Other text is a region as a whole, or no region begins in it. -/
theorem regionsFrom_kept {p : Piece} {rest : Text} (leads : p.Leads rest.head?)
    (kept : p.isPlaceholder = false) (offset : Nat) :
    regionsFrom offset (p.raw ++ rest) = ⟨offset, offset + Text.byteLength p.raw⟩ ::
        regionsFrom (offset + Text.byteLength p.raw) rest ∨
      regionsFrom offset (p.raw ++ rest) =
        regionsFrom (offset + Text.byteLength p.raw) rest := by
  cases leads with
  | region whole ends =>
      exact .inl (regionsFrom_region (lexeme_of_region (verbatim_before whole ends)) offset)
  | cast => exact .inr (regionsFrom_plain (by simp [Piece.raw]) rest offset)
  | colon => exact .inr (regionsFrom_plain (by simp [Piece.raw]) rest offset)
  | @other c plain noLine noBlock =>
      have noQuote : c ∉ ['\'', '"', '\x60'] := by
        intro quote
        exact plain (.tail _ (.tail _ quote))
      exact .inr (regionsFrom_char (lexeme_of_char (verbatim_plain noQuote noLine noBlock)) offset)
  | _ => cases kept

theorem placeholdersFrom_outside {ps : List Piece} (cut : IsCut ps) (out raw : Nat) :
    ∀ p ∈ placeholdersFrom out raw ps, ∀ region ∈ regionsFrom raw (spelled ps),
      p.span.stop ≤ region.start ∨ region.stop ≤ p.span.start := by
  induction ps generalizing out raw with
  | nil => exact fun _ member => nomatch member
  | cons q ps ih =>
      obtain ⟨leads, cutTail⟩ := cut
      intro p member region among
      rw [spelled_cons] at among
      cases mark : q.isPlaceholder with
      | true =>
          rw [placeholdersFrom_mark mark] at member
          rw [regionsFrom_placeholder leads mark] at among
          rcases List.mem_cons.1 member with rfl | later
          · exact .inl (regionsFrom_ge region among)
          · exact ih cutTail _ _ p later region among
      | false =>
          rw [placeholdersFrom_kept mark] at member
          rcases regionsFrom_kept leads mark raw with whole | none
          · rw [whole] at among
            rcases List.mem_cons.1 among with rfl | later
            · exact .inr (placeholdersFrom_ge p member)
            · exact ih cutTail _ _ p member region later
          · rw [none] at among
            exact ih cutTail _ _ p member region among

/-- A character that begins a placeholder unless it is in a region: a question mark, or a colon
before a name that no colon precedes. -/
def BeginsMark (before : Text) (c : Char) (after : Text) : Prop :=
  c = '?' ∨ c = ':' ∧ before.getLast? ≠ some ':' ∧ after.head?.any Text.isIdentChar = true

theorem BeginsMark.behind {before before' after : Text} {c : Char}
    (begins : BeginsMark (before ++ before') c after) : BeginsMark before' c after := by
  refine begins.imp id fun ⟨colon, single, name⟩ => ⟨colon, ?_, name⟩
  intro last
  exact single (by rw [List.getLast?_append, last]; rfl)

/-- A mark in a piece is the first character of a placeholder, or the piece is a region. -/
theorem Piece.Leads.begins {p : Piece} {rest before inside : Text} {c : Char}
    (leads : p.Leads rest.head?) (here : p.raw = before ++ c :: inside)
    (begins : BeginsMark before c (inside ++ rest)) :
    (p.isPlaceholder ∧ before = []) ∨
      ∃ text, Query.verbatim (p.raw ++ rest) = .region text rest := by
  cases leads with
  | region whole ends => exact .inr ⟨_, verbatim_before whole ends⟩
  | positional =>
      cases before with
      | nil => exact .inl ⟨rfl, rfl⟩
      | cons d before => simp [raw] at here
  | cast =>
      rcases before with _ | ⟨d, _ | ⟨e, before⟩⟩
      · simp only [raw, List.nil_append, List.cons.injEq] at here
        obtain ⟨rfl, rfl⟩ := here
        rcases begins with question | ⟨_, _, name⟩
        · cases question
        · simp [Text.isIdentChar, Text.isLetter, Text.isLower, Text.isUpper, Text.isDigit] at name
      · simp only [raw, List.cons_append, List.nil_append, List.cons.injEq] at here
        obtain ⟨rfl, rfl, rfl⟩ := here
        rcases begins with question | ⟨_, single, _⟩
        · cases question
        · exact absurd rfl single
      · simp [raw] at here
  | colon noColon noName =>
      cases before with
      | nil =>
          simp only [raw, List.nil_append, List.cons.injEq] at here
          obtain ⟨rfl, rfl⟩ := here
          rcases begins with question | ⟨_, _, name⟩
          · cases question
          · rw [List.nil_append, noName] at name
            cases name
      | cons d before => simp [raw] at here
  | named nonempty all =>
      cases before with
      | nil => exact .inl ⟨rfl, rfl⟩
      | cons d before =>
          simp only [raw, List.cons_append, List.cons.injEq] at here
          have isName := all c (by rw [here.2]; simp)
          rcases begins with rfl | ⟨rfl, _⟩ <;> exact absurd isName (by decide)
  | other plain =>
      cases before with
      | nil =>
          simp only [raw, List.nil_append, List.cons.injEq] at here
          obtain ⟨rfl, rfl⟩ := here
          rcases begins with rfl | ⟨rfl, _⟩ <;> simp at plain
      | cons d before => simp [raw] at here

/-- A character of two texts that are written one after the other is a character of one. -/
theorem append_eq_append_cons {cs rest before after : Text} {c : Char}
    (same : cs ++ rest = before ++ c :: after) :
    (∃ inside, cs = before ++ c :: inside ∧ after = inside ++ rest) ∨
      ∃ behind, before = cs ++ behind ∧ rest = behind ++ c :: after := by
  rcases List.append_eq_append_iff.1 same with ⟨behind, left, right⟩ | ⟨inside, left, right⟩
  · exact .inr ⟨behind, left, right⟩
  · cases inside with
    | nil => exact .inr ⟨[], by simpa using left.symm, by simpa using right.symm⟩
    | cons d inside =>
        cases right
        exact .inl ⟨inside, left, rfl⟩

/-- No placeholder is overlooked. -/
theorem placeholdersFrom_complete {ps : List Piece} (cut : IsCut ps) (out raw : Nat)
    {before after : Text} {c : Char} (written : spelled ps = before ++ c :: after)
    (begins : BeginsMark before c after)
    (outside : ∀ region ∈ regionsFrom raw (spelled ps),
      raw + Text.byteLength before < region.start ∨
        region.stop ≤ raw + Text.byteLength before) :
    ∃ p ∈ placeholdersFrom out raw ps, p.span.start = raw + Text.byteLength before := by
  induction ps generalizing out raw before with
  | nil => simp at written
  | cons q ps ih =>
      obtain ⟨leads, cutTail⟩ := cut
      rw [spelled_cons] at written outside
      rcases append_eq_append_cons written with ⟨inside, here, rfl⟩ | ⟨behind, rfl, later⟩
      · rcases leads.begins here begins with ⟨mark, rfl⟩ | ⟨text, whole⟩
        · rw [placeholdersFrom_mark mark]
          exact ⟨_, .head _, rfl⟩
        · rw [regionsFrom_region (lexeme_of_region whole)] at outside
          have size : text = q.raw :=
            List.append_cancel_right (verbatim_region whole).1
          have positive := c.utf8Size_pos
          have apart := outside _ (.head _)
          rw [size, here] at apart
          simp at apart
          omega
      · have more := ih cutTail (out + Text.byteLength q.normal)
          (raw + Text.byteLength q.raw) later begins.behind ?_
        · obtain ⟨p, member, start⟩ := more
          refine ⟨p, ?_, by rw [start, Text.byteLength_append, Nat.add_assoc]⟩
          cases mark : q.isPlaceholder with
          | true =>
              rw [placeholdersFrom_mark mark]
              rw [Piece.normal_of_isPlaceholder mark] at member
              exact .tail _ member
          | false =>
              rw [placeholdersFrom_kept mark]
              rw [Piece.normal_eq_raw mark] at member
              exact member
        · intro region among
          rw [Nat.add_assoc, ← Text.byteLength_append]
          apply outside
          cases mark : q.isPlaceholder with
          | true =>
              rw [regionsFrom_placeholder leads mark]
              exact among
          | false =>
              rcases regionsFrom_kept leads mark raw with whole | none
              · rw [whole]
                exact .tail _ among
              · rw [none]
                exact among

/-- The edits that write the placeholders among pieces in another way. -/
def editsFrom (old new : Piece → Text) (offset : Nat) : List Piece → List Edit
  | [] => []
  | p :: ps =>
      let more := editsFrom old new (offset + Text.byteLength (old p)) ps
      if p.isPlaceholder then
        ⟨⟨offset, offset + Text.byteLength (old p)⟩, String.ofList (new p)⟩ :: more
      else more

section Rewriting

variable {old new : Piece → Text}

theorem editsFrom_cut (same : ∀ p : Piece, p.isPlaceholder = false → old p = new p)
    (o : Nat) (ps : List Piece) :
    Cut o (editsFrom old new o ps) (ps.flatMap old) (ps.flatMap new) := by
  induction ps generalizing o with
  | nil => exact .done
  | cons p ps ih =>
      have more := ih (o + Text.byteLength (old p))
      rw [List.flatMap_cons, List.flatMap_cons]
      unfold editsFrom
      cases mark : p.isPlaceholder with
      | true => exact @Cut.edit o [] (old p) (new p) _ _ _ more
      | false =>
          rw [← same p mark]
          exact more.behind (old p)

/-- Writing every placeholder in another way leads from the one text to the other. -/
theorem editsFrom_apply (same : ∀ p : Piece, p.isPlaceholder = false → old p = new p)
    (ps : List Piece) :
    EditList.apply ⟨editsFrom old new 0 ps⟩ (String.ofList (ps.flatMap old)) =
      .ok (String.ofList (ps.flatMap new)) :=
  (editsFrom_cut same 0 ps).apply

end Rewriting

/-- A placeholder as it is written in a text. -/
def Placeholder.written (p : Placeholder) : Text :=
  match p.name with
  | none => ['?']
  | some name => ':' :: name.toList

theorem Piece.written_placeholder {p : Piece} (mark : p.isPlaceholder) (out raw : Nat) :
    (p.placeholder out raw).written = p.raw := by
  cases p with
  | verbatim text => cases mark
  | positional => rfl
  | named name => simp [placeholder, name?, Placeholder.written, Piece.raw]

theorem editsFrom_normal (out raw : Nat) (ps : List Piece) :
    editsFrom Piece.raw Piece.normal raw ps =
      (placeholdersFrom out raw ps).map fun p => ⟨p.span, "?"⟩ := by
  induction ps generalizing out raw with
  | nil => rfl
  | cons p ps ih =>
      unfold editsFrom
      cases mark : p.isPlaceholder with
      | true =>
          rw [placeholdersFrom_mark mark, if_pos rfl, ih (out + 1),
            Piece.normal_of_isPlaceholder mark]
          rfl
      | false =>
          rw [placeholdersFrom_kept mark, if_neg (by simp)]
          exact ih _ _

theorem editsFrom_raw (out raw : Nat) (ps : List Piece) :
    editsFrom Piece.normal Piece.raw out ps =
      (placeholdersFrom out raw ps).map fun p =>
        ⟨⟨p.offset, p.offset + 1⟩, String.ofList p.written⟩ := by
  induction ps generalizing out raw with
  | nil => rfl
  | cons p ps ih =>
      unfold editsFrom
      cases mark : p.isPlaceholder with
      | true =>
          have size : Text.byteLength ['?'] = 1 := rfl
          rw [placeholdersFrom_mark mark, if_pos rfl, Piece.normal_of_isPlaceholder mark, size,
            ih (out + 1) (raw + Text.byteLength p.raw), List.map_cons,
            Piece.written_placeholder mark]
          rfl
      | false =>
          rw [placeholdersFrom_kept mark, if_neg (by simp), Piece.normal_eq_raw mark]
          exact ih _ _

/-- What the text of a query and its placeholders say of the text they were read from. -/
structure ParsedQuery.Lossless (raw : String) (q : ParsedQuery) : Prop where
  inRange : ∀ p ∈ q.placeholders,
    p.span.start < p.span.stop ∧ p.span.stop ≤ Text.byteLength raw.toList
  boundaries : ∀ p ∈ q.placeholders,
    Text.isBoundary raw.toList p.span.start ∧ Text.isBoundary raw.toList p.span.stop
  ordered : q.placeholders.Pairwise fun a b => a.span.stop ≤ b.span.start
  written : ∀ p ∈ q.placeholders, Text.slice? raw.toList p.span = some p.written
  named : ∀ p ∈ q.placeholders, ∀ name, p.name = some name →
    name.toList ≠ [] ∧ (∀ c ∈ name.toList, Text.isIdentChar c) ∧
      ∀ before after, raw.toList = before ++ after → Text.byteLength before = p.span.stop →
        after.head?.any Text.isIdentChar = false
  outside : ∀ p ∈ q.placeholders, ∀ region ∈ regionsFrom 0 raw.toList,
    p.span.stop ≤ region.start ∨ region.stop ≤ p.span.start
  complete : ∀ before c after, raw.toList = before ++ c :: after → BeginsMark before c after →
    (∀ region ∈ regionsFrom 0 raw.toList,
      Text.byteLength before < region.start ∨ region.stop ≤ Text.byteLength before) →
    ∃ p ∈ q.placeholders, p.span.start = Text.byteLength before
  normalized : EditList.apply ⟨q.placeholders.map fun p => ⟨p.span, "?"⟩⟩ raw = .ok q.sql
  moved : ∀ k p, q.placeholders[k]? = some p →
    p.offset + total ((q.placeholders.take k).map fun a => a.span.stop - a.span.start - 1) =
      p.span.start
  marked : ∀ p ∈ q.placeholders,
    Text.slice? q.sql.toList ⟨p.offset, p.offset + 1⟩ = some ['?']
  restored :
    EditList.apply ⟨q.placeholders.map fun p =>
      ⟨⟨p.offset, p.offset + 1⟩, String.ofList p.written⟩⟩ q.sql = .ok raw

/-- Where a placeholder stands in the text as written and in the normal form. -/
theorem parse_site {raw : String} {q : ParsedQuery} {p : Placeholder}
    (parsed : parse raw = .ok q) (member : p ∈ q.placeholders) :
    ∃ (piece : Piece) (before after before' after' : Text), piece.isPlaceholder ∧
      piece.Leads after.head? ∧ raw.toList = before ++ (piece.raw ++ after) ∧
      q.sql.toList = before' ++ (['?'] ++ after') ∧
      p = piece.placeholder (Text.byteLength before') (Text.byteLength before) := by
  obtain ⟨ps, cut, text, rfl⟩ := parse_eq_ok parsed
  obtain ⟨before, piece, after, rfl, mark, rfl⟩ := mem_placeholdersFrom member
  refine ⟨piece, spelled before, spelled after, before.flatMap Piece.normal,
    after.flatMap Piece.normal, mark, cut.leads, ?_, ?_, ?_⟩
  · simp [text, spelled]
  · simp [ParsedQuery.ofPieces, Piece.normal_of_isPlaceholder mark]
  · rw [Nat.zero_add, Nat.zero_add]

/-- Reading a query loses nothing of its text. -/
theorem parse_lossless {raw : String} {q : ParsedQuery} (parsed : parse raw = .ok q) :
    q.Lossless raw := by
  obtain ⟨ps, cut, text, same⟩ := parse_eq_ok parsed
  have source : raw = String.ofList (spelled ps) := by rw [← text, String.ofList_toList]
  constructor
  case inRange =>
    intro p member
    obtain ⟨piece, before, after, _, _, mark, _, here, _, rfl⟩ := parse_site parsed member
    have positive := piece.byteLength_raw_pos mark
    rw [here, Text.byteLength_append, Text.byteLength_append]
    dsimp only [Piece.placeholder]
    omega
  case boundaries =>
    intro p member
    obtain ⟨piece, before, after, _, _, _, _, here, _, rfl⟩ := parse_site parsed member
    have stop := Text.isBoundary_append (before ++ piece.raw) after
    rw [List.append_assoc, Text.byteLength_append] at stop
    rw [here]
    exact ⟨Text.isBoundary_append before _, stop⟩
  case ordered =>
    subst same
    exact placeholdersFrom_pairwise 0 0 ps
  case written =>
    intro p member
    obtain ⟨piece, before, after, _, _, mark, _, here, _, rfl⟩ := parse_site parsed member
    rw [Piece.written_placeholder mark, here]
    exact Text.slice?_append before piece.raw after
  case named =>
    intro p member name isNamed
    obtain ⟨piece, before, after, _, _, _, leads, here, _, rfl⟩ := parse_site parsed member
    cases leads with
    | @named text nonempty all ends =>
        cases isNamed
        rw [String.toList_ofList]
        refine ⟨nonempty, all, ?_⟩
        intro before' after' split stop
        rw [here, ← List.append_assoc] at split
        have size : Text.byteLength (before ++ (Piece.named text).raw) =
            Text.byteLength before' := by
          rw [stop, Text.byteLength_append]
          rfl
        rw [← (Text.append_inj_of_byteLength split size).2]
        exact ends
    | _ => cases isNamed
  case outside =>
    subst same
    rw [text]
    exact placeholdersFrom_outside cut 0 0
  case complete =>
    intro before c after split begins outside
    subst same
    rw [text] at split outside
    have found := placeholdersFrom_complete cut 0 0 split begins
    simp only [Nat.zero_add] at found
    exact found outside
  case normalized =>
    have edits := @editsFrom_apply Piece.raw Piece.normal
      (fun _ kept => (Piece.normal_eq_raw kept).symm) ps
    rw [editsFrom_normal 0] at edits
    rw [source, same]
    exact edits
  case moved =>
    intro k p found
    subst same
    have moved := @placeholdersFrom_moved 0 0 k ps p cut found
    rw [Nat.zero_add] at moved
    exact moved
  case marked =>
    intro p member
    obtain ⟨piece, _, _, before', after', _, _, _, here, rfl⟩ := parse_site parsed member
    rw [here]
    exact Text.slice?_append before' ['?'] after'
  case restored =>
    have edits := @editsFrom_apply Piece.normal Piece.raw (fun _ => Piece.normal_eq_raw) ps
    rw [editsFrom_raw 0 0] at edits
    rw [source, same]
    exact edits

theorem parse_lossless_select :
    ∃ q, parse "SELECT ':a', id FROM t WHERE k = :k" = .ok q ∧
      q.Lossless "SELECT ':a', id FROM t WHERE k = :k" := by
  have parsed : parse "SELECT ':a', id FROM t WHERE k = :k" =
      .ok ⟨"SELECT ':a', id FROM t WHERE k = ?", [⟨33, some "k", ⟨33, 35⟩⟩]⟩ := by decide +kernel
  exact ⟨_, parsed, parse_lossless parsed⟩

end Query

end SqlUnits
