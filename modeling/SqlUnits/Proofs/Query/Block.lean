import SqlUnits.Proofs.Query.Region
import SqlUnits.Proofs.Text.Offset
import SqlUnits.Query.Block
/-!
Where a block ends depends on nothing behind its closing brace, and on no offset.
-/

namespace SqlUnits.Query

theorem lexeme_of_region {cs text rest : Text} (read : verbatim cs = .region text rest) :
    lexeme cs = .region text rest := by
  simp [lexeme, read]

theorem verbatim_of_region {cs text rest : Text} (read : lexeme cs = .region text rest) :
    verbatim cs = .region text rest := by
  cases found : verbatim cs with
  | none => cases cs <;> simp [lexeme, found] at read
  | unclosed construct => simp [lexeme, found] at read
  | region => simpa [lexeme, found] using read

theorem verbatim_of_unclosed {cs : Text} {construct : Construct}
    (read : lexeme cs = .unclosed construct) : verbatim cs = .unclosed construct := by
  cases found : verbatim cs with
  | none => cases cs <;> simp [lexeme, found] at read
  | unclosed => simpa [lexeme, found] using read
  | region => simp [lexeme, found] at read

theorem verbatim_of_char {cs rest : Text} {c : Char} (read : lexeme cs = .char c rest) :
    verbatim cs = .none := by
  cases found : verbatim cs with
  | none => rfl
  | unclosed construct => simp [lexeme, found] at read
  | region => simp [lexeme, found] at read

theorem lexeme_of_char {c : Char} {rest : Text} (plain : verbatim (c :: rest) = .none) :
    lexeme (c :: rest) = .char c rest := by
  simp [lexeme, plain]

/-- A single character stays one before every text that begins in the same way. -/
theorem lexeme_char_before {c : Char} {rest rest' : Text}
    (read : lexeme (c :: rest) = .char c rest) (head : rest'.head? = rest.head?) :
    lexeme (c :: rest') = .char c rest' := by
  obtain ⟨noQuote, noLine, noBlock⟩ := verbatim_eq_none (verbatim_of_char read)
  rw [← head] at noLine noBlock
  exact lexeme_of_char (verbatim_plain noQuote noLine noBlock)

theorem blockEndFrom_region {cs text rest : Text} (read : lexeme cs = .region text rest)
    (start depth offset : Nat) :
    blockEndFrom start depth offset cs =
      blockEndFrom start depth (offset + Text.byteLength text) rest := by
  rw [blockEndFrom]
  split <;> simp_all

theorem blockEndFrom_char {c : Char} {cs rest : Text} (read : lexeme cs = .char c rest)
    (start depth offset : Nat) :
    blockEndFrom start depth offset cs =
      if c = '\x7d' && depth = 1 then .ok offset
      else
        blockEndFrom start
          (if c = '\x7b' then depth + 1 else if c = '\x7d' then depth - 1 else depth)
          (offset + c.utf8Size) rest := by
  rw [blockEndFrom]
  split <;> simp_all

/-- Up to its closing brace a block is read in the same way in every place. -/
theorem blockEndFrom_eq_ok {start depth offset stop : Nat} {cs : Text}
    (ends : blockEndFrom start depth offset cs = .ok stop) :
    ∃ inside rest, cs = inside ++ '\x7d' :: rest ∧ stop = offset + Text.byteLength inside ∧
      ∀ start' offset' rest', blockEndFrom start' depth offset' (inside ++ '\x7d' :: rest') =
        .ok (offset' + Text.byteLength inside) := by
  fun_induction blockEndFrom start depth offset cs with
  | case1 | case2 => cases ends
  | case3 depth offset cs text rest read shorter ih =>
      obtain ⟨inside, after, rfl, rfl, again⟩ := ih ends
      have whole := (verbatim_region (verbatim_of_region read)).1
      have next := verbatim_endsBefore (verbatim_of_region read)
      refine ⟨text ++ inside, after, by rw [← whole, List.append_assoc], ?_, ?_⟩
      · rw [Text.byteLength_append, Nat.add_assoc]
      · intro start' offset' rest'
        have head : (inside ++ '\x7d' :: rest').head? = (inside ++ '\x7d' :: after).head? := by
          cases inside <;> rfl
        rw [← head] at next
        have read := verbatim_before (verbatim_of_region read) next
        rw [List.append_assoc, blockEndFrom_region (lexeme_of_region read), again,
          Text.byteLength_append, Nat.add_assoc]
  | case4 depth offset cs c rest read shorter closes =>
      simp only [Bool.and_eq_true, decide_eq_true_eq] at closes
      obtain ⟨rfl, rfl⟩ := closes
      cases ends
      refine ⟨[], rest, lexeme_char read, rfl, ?_⟩
      intro start' offset' rest'
      have plain : lexeme ('\x7d' :: rest') = .char '\x7d' rest' :=
        lexeme_of_char (verbatim_plain (by decide) (by simp) (by simp))
      rw [List.nil_append, blockEndFrom_char plain]
      rfl
  | case5 depth offset cs c rest read shorter goesOn deeper ih =>
      obtain ⟨inside, after, rfl, rfl, again⟩ := ih ends
      obtain rfl := lexeme_char read
      refine ⟨c :: inside, after, rfl, ?_, ?_⟩
      · rw [Text.byteLength_cons, Nat.add_assoc]
      · intro start' offset' rest'
        have head : (inside ++ '\x7d' :: rest').head? = (inside ++ '\x7d' :: after).head? := by
          cases inside <;> rfl
        rw [List.cons_append, blockEndFrom_char (lexeme_char_before read head), if_neg goesOn,
          Text.byteLength_cons, ← Nat.add_assoc]
        exact again start' (offset' + c.utf8Size) rest'

/-- A block that is closed in one place is closed in every other one. -/
theorem blockEndFrom_shift {start depth offset : Nat} {inside rest : Text}
    (ends : blockEndFrom start depth offset (inside ++ '\x7d' :: rest) =
      .ok (offset + Text.byteLength inside)) (start' offset' : Nat) (rest' : Text) :
    blockEndFrom start' depth offset' (inside ++ '\x7d' :: rest') =
      .ok (offset' + Text.byteLength inside) := by
  obtain ⟨inside', _, cut, stop, again⟩ := blockEndFrom_eq_ok ends
  obtain ⟨rfl, _⟩ := Text.append_inj_of_byteLength cut (Nat.add_left_cancel stop)
  exact again start' offset' rest'

theorem blockEnd_brace (start : Nat) (cs : Text) :
    blockEnd start ('\x7b' :: cs) = blockEndFrom start 1 (start + 1) cs := by
  have brace : lexeme ('\x7b' :: cs) = .char '\x7b' cs :=
    lexeme_of_char (verbatim_plain (by decide) (by simp) (by simp))
  unfold blockEnd
  rw [blockEndFrom_char brace]
  rfl

/-- The inside of a block: read at any place, it ends at the brace behind it. -/
def IsInside (inside : Text) : Prop :=
  ∀ offset rest, blockEnd offset ('\x7b' :: (inside ++ '\x7d' :: rest)) =
    .ok (offset + 1 + Text.byteLength inside)

theorem blockEnd_eq_ok {start stop : Nat} {rest : Text} :
    blockEnd start ('\x7b' :: rest) = .ok stop ↔
      ∃ inside after, rest = inside ++ '\x7d' :: after ∧ IsInside inside ∧
        stop = start + 1 + Text.byteLength inside := by
  constructor
  · intro ends
    rw [blockEnd_brace] at ends
    obtain ⟨inside, after, rfl, rfl, again⟩ := blockEndFrom_eq_ok ends
    refine ⟨inside, after, rfl, fun offset rest' => ?_, rfl⟩
    rw [blockEnd_brace]
    exact again offset _ rest'
  · rintro ⟨inside, after, rfl, isInside, rfl⟩
    exact isInside start after

/-- One place tells whether a text is the inside of a block. -/
theorem isInside_iff {inside : Text} :
    IsInside inside ↔
      blockEnd 0 ('\x7b' :: (inside ++ ['\x7d'])) = .ok (0 + 1 + Text.byteLength inside) := by
  refine ⟨fun isInside => isInside 0 [], fun ends offset rest => ?_⟩
  rw [blockEnd_brace] at ends ⊢
  exact blockEndFrom_shift ends offset _ rest

instance (inside : Text) : Decidable (IsInside inside) :=
  decidable_of_iff _ isInside_iff.symm

theorem le_of_blockEndFrom {start depth offset stop : Nat} {cs : Text}
    (ends : blockEndFrom start depth offset cs = .ok stop) : offset ≤ stop := by
  obtain ⟨_, _, _, rfl, _⟩ := blockEndFrom_eq_ok ends
  exact Nat.le_add_right _ _

/-- Blanks in a block are passed over. -/
theorem blockEndFrom_blanks {blanks : Text} (all : ∀ c ∈ blanks, Text.isBlank c = true)
    (start depth offset : Nat) (cs : Text) :
    blockEndFrom start depth offset (blanks ++ cs) =
      blockEndFrom start depth (offset + Text.byteLength blanks) cs := by
  induction blanks generalizing offset with
  | nil => rfl
  | cons c blanks ih =>
      have blank := all c (.head _)
      have noBrace : c ≠ '\x7b' ∧ c ≠ '\x7d' := by
        constructor <;> rintro rfl <;> exact absurd blank (by decide)
      have read := lexeme_of_char ((neutral_of_isBlank blank).verbatim (blanks ++ cs))
      rw [List.cons_append, blockEndFrom_char read]
      simp only [noBrace, decide_false, Bool.false_and, Bool.false_eq_true, if_false]
      rw [ih (fun d member => all d (.tail c member)), Text.byteLength_cons, Nat.add_assoc]

/-- A region that ends no later than a blank before a closing brace ends before the blank. -/
theorem region_before_blank {text more sql rest : Text}
    (read : verbatim (text ++ more) = .region text more)
    (whole : text ++ more = sql ++ ' ' :: '\x7d' :: rest)
    (short : Text.byteLength text ≤ Text.byteLength sql + 1) :
    ∃ sql', sql = text ++ sql' ∧ more = sql' ++ ' ' :: '\x7d' :: rest := by
  rcases List.append_eq_append_iff.1 whole with ⟨sql', rfl, same⟩ | ⟨beyond, rfl, same⟩
  · exact ⟨sql', rfl, same⟩
  · cases beyond with
    | nil => exact ⟨[], by simp, same.symm⟩
    | cons b beyond =>
        obtain ⟨rfl, behind⟩ := List.cons.inj same
        have none : beyond = [] := by
          cases beyond with
          | nil => rfl
          | cons b beyond =>
              have positive := b.utf8Size_pos
              simp only [Text.byteLength_append, Text.byteLength_cons] at short
              have one : ' '.utf8Size = 1 := by decide
              omega
        subst none
        have ends := verbatim_endsBefore read
        rcases verbatim_getLast? read with ⟨c, member, last⟩ | ⟨tail, comment⟩
        · obtain rfl : ' ' = c := by simpa using last
          exact absurd member (by decide)
        · obtain rfl : '\x7d' :: rest = more := behind
          rw [comment] at ends
          rcases ends with none | newline
          · cases none
          · exact absurd newline (by simp)

/-- A text that a blank may follow in a block may be followed by any blanks, or none. -/
theorem blockEndFrom_pad {start depth offset : Nat} {cs sql rest trail : Text}
    (ends : blockEndFrom start depth offset cs = .ok (offset + Text.byteLength sql + 1))
    (whole : cs = sql ++ ' ' :: '\x7d' :: rest) (all : ∀ c ∈ trail, Text.isBlank c = true)
    (rest' : Text) :
    blockEndFrom start depth offset (sql ++ (trail ++ '\x7d' :: rest')) =
      .ok (offset + Text.byteLength sql + Text.byteLength trail) := by
  -- What follows the statement may change, but its first character never joins what is before it.
  obtain ⟨e, other, begins, neutral⟩ :
      ∃ e other, trail ++ '\x7d' :: rest' = e :: other ∧ Neutral e := by
    cases trail with
    | nil => exact ⟨_, _, rfl, by decide⟩
    | cons c trail => exact ⟨_, _, rfl, neutral_of_isBlank (all c (.head _))⟩
  fun_induction blockEndFrom start depth offset cs generalizing sql with
  | case1 | case2 => cases ends
  | case3 depth offset cs text more read shorter ih =>
      have short := le_of_blockEndFrom ends
      have region := verbatim_of_region read
      have cut := (verbatim_region region).1
      rw [← cut] at region whole
      obtain ⟨sql, rfl, rfl⟩ := region_before_blank region whole (by omega)
      have again : verbatim (text ++ (sql ++ (trail ++ '\x7d' :: rest'))) =
          .region text (sql ++ (trail ++ '\x7d' :: rest')) := by
        cases sql with
        | nil =>
            rw [List.nil_append, begins]
            exact verbatim_neutral region neutral
        | cons d sql =>
            have ends : EndsBefore text (some d) := verbatim_endsBefore region
            exact verbatim_before region ends
      rw [List.append_assoc, blockEndFrom_region (lexeme_of_region again)]
      rw [Text.byteLength_append, ← Nat.add_assoc] at ends ⊢
      exact ih ends rfl
  | case4 depth offset cs c more read shorter closes =>
      have beyond := Except.ok.inj ends
      omega
  | case5 depth offset cs c more read shorter goesOn deeper =>
      rename_i ih
      obtain rfl := lexeme_char read
      have brace (rest : Text) : lexeme ('\x7d' :: rest) = .char '\x7d' rest :=
        lexeme_of_char ((by decide : Neutral '\x7d').verbatim rest)
      cases sql with
      | nil =>
          obtain ⟨rfl, rfl⟩ := List.cons.inj whole
          obtain rfl : depth = 1 := by
            by_contra other
            change blockEndFrom start depth _ _ = _ at ends
            rw [blockEndFrom_char (brace rest), if_neg (by simpa using other)] at ends
            have beyond := le_of_blockEndFrom ends
            have size : ' '.utf8Size = 1 ∧ '\x7d'.utf8Size = 1 := by decide
            rw [Text.byteLength_nil] at beyond
            omega
          rw [List.nil_append, blockEndFrom_blanks all, blockEndFrom_char (brace rest')]
          rfl
      | cons d sql =>
          obtain ⟨rfl, rfl⟩ := List.cons.inj whole
          have plain : verbatim (c :: (sql ++ (trail ++ '\x7d' :: rest'))) = .none := by
            cases sql with
            | nil =>
                rw [List.nil_append, begins]
                exact verbatim_char_neutral (verbatim_of_char read) neutral
            | cons d sql => exact verbatim_of_char (lexeme_char_before read rfl)
          rw [List.cons_append, blockEndFrom_char (lexeme_of_char plain), if_neg goesOn]
          rw [Text.byteLength_cons, ← Nat.add_assoc] at ends ⊢
          exact ih ends rfl

/-- A statement that closes with a blank at each end closes with any blanks there. -/
theorem IsInside.pad {sql lead trail : Text} (isInside : IsInside (' ' :: (sql ++ [' '])))
    (leads : ∀ c ∈ lead, Text.isBlank c = true) (trails : ∀ c ∈ trail, Text.isBlank c = true) :
    IsInside (lead ++ (sql ++ trail)) := by
  intro offset rest
  have blank : ∀ c ∈ [' '], Text.isBlank c = true := List.forall_mem_singleton.2 (by decide)
  have size : Text.byteLength [' '] = 1 := by decide
  have ends := isInside offset rest
  have lone : ' ' :: (sql ++ [' ']) ++ '\x7d' :: rest =
      [' '] ++ (sql ++ ' ' :: '\x7d' :: rest) := by simp
  rw [blockEnd_brace, lone, blockEndFrom_blanks blank, size] at ends
  have last : offset + 1 + Text.byteLength (' ' :: (sql ++ [' '])) =
      offset + 1 + 1 + Text.byteLength sql + 1 := by
    rw [← List.singleton_append, Text.byteLength_append, Text.byteLength_append, size]
    omega
  rw [last] at ends
  have padded := blockEndFrom_pad ends rfl trails rest
  have both : sql ++ (trail ++ '\x7d' :: rest) = (sql ++ trail) ++ '\x7d' :: rest :=
    (List.append_assoc _ _ _).symm
  rw [both, Nat.add_assoc (offset + 1 + 1), ← Text.byteLength_append] at padded
  rw [blockEnd_brace, List.append_assoc, blockEndFrom_blanks leads,
    blockEndFrom_shift padded offset _ rest, Text.byteLength_append lead,
    Nat.add_assoc (offset + 1)]

end SqlUnits.Query
