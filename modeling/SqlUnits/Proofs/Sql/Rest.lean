import SqlUnits.Proofs.Query.Delimiting
import SqlUnits.Proofs.Sql.Enclosed
import SqlUnits.Proofs.Sql.Grammar
/-!
What is read of a text is its first statement, up to the first semicolon behind a token. The rest is
idle, a text of blanks, comments and semicolons, exactly if all of its tokens are semicolons.
-/

namespace SqlUnits.Sql

open SqlUnits.Query (closeComment? closeComment?_eq_some_iff closeComment?_eq_none_iff)

/-- What separates tokens, as it stands before a character or the end of the text: a blank, a
comment, or a comment that the end of the text closes. -/
inductive IsGap (next : Option Char) : Text → Prop
  | blank {c : Char} (blank : Token.isBlank c = true) : IsGap next [c]
  | line {inside : Text} (oneLine : '\n' ∉ inside) (ends : next = none ∨ next = some '\n') :
      IsGap next ('-' :: '-' :: inside)
  | block {inside : Text} (first : ¬['*', '/'] <:+: inside) :
      IsGap next ('/' :: '*' :: (inside ++ ['*', '/']))
  | opened {inside : Text} (open_ : ¬['*', '/'] <:+: inside) (some_ : inside ≠ [])
      (ends : next = none) : IsGap next ('/' :: '*' :: inside)

/-- A text without a statement. -/
inductive Idle : Text → Prop
  | nil : Idle []
  | gap {text rest : Text} : IsGap rest.head? text → Idle rest → Idle (text ++ rest)
  | semicolon {rest : Text} : Idle rest → Idle (';' :: rest)

theorem commentLength_eq (cs : Text) :
    Token.commentLength cs =
      ((closeComment? cs).map fun found => found.1.length).getD cs.length := by
  fun_induction closeComment? cs with
  | case1 => rfl
  | case2 c rest noMark ih =>
      rw [Token.commentLength, ih]
      · cases closeComment? rest <;> simp
      · rintro more rfl rfl
        exact noMark _ rfl rfl
  | case3 => rfl

theorem gapLength_mark {cs : Text} (some_ : cs ≠ []) :
    Token.gapLength ('/' :: '*' :: cs) = 2 + Token.commentLength cs := by
  obtain ⟨c, rest, rfl⟩ := List.exists_cons_of_ne_nil some_
  rfl

theorem IsGap.length {text rest : Text} (gap : IsGap rest.head? text) :
    Token.gapLength (text ++ rest) = text.length := by
  cases gap with
  | @blank c blank =>
      rw [List.singleton_append, Token.gapLength, if_pos blank]
      · rfl
      · rintro _ rfl
        exact absurd blank (by decide)
      · rintro _ _ rfl
        exact absurd blank (by decide)
  | @line inside oneLine ends =>
      have stop : rest.head?.any (· ≠ '\n') = false := by rcases ends with h | h <;> simp [h]
      have all : ∀ c ∈ inside, decide (c ≠ '\n') = true := by
        intro c member
        rw [decide_eq_true_eq]
        rintro rfl
        exact oneLine member
      rw [List.cons_append, List.cons_append, Token.gapLength, Text.takeWhile_run all stop]
      simp only [List.length_cons]
      omega
  | @block inside first =>
      have closed : closeComment? (inside ++ ['*', '/'] ++ rest) =
          some (inside ++ ['*', '/'], rest) :=
        closeComment?_eq_some_iff.2 ⟨inside, first, rfl, rfl⟩
      rw [List.cons_append, List.cons_append, gapLength_mark (by simp), commentLength_eq, closed]
      simp only [Option.map_some, Option.getD_some, List.length_cons]
      omega
  | @opened inside open_ some_ ends =>
      obtain rfl := List.head?_eq_none_iff.1 ends
      rw [List.append_nil, gapLength_mark some_, commentLength_eq,
        closeComment?_eq_none_iff.2 open_]
      simp only [Option.map_none, Option.getD_none, List.length_cons]
      omega

/-- Where something separates tokens, it is a gap. -/
theorem exists_gap {source : Text} (gap : Token.gapLength source ≠ 0) :
    ∃ text rest, source = text ++ rest ∧ IsGap rest.head? text := by
  unfold Token.gapLength at gap
  split at gap
  case h_1 rest =>
    let inside := rest.takeWhile (· ≠ '\n')
    let behind := rest.dropWhile (· ≠ '\n')
    refine ⟨'-' :: '-' :: inside, behind, ?_, .line (fun member => ?_) ?_⟩
    · rw [List.cons_append, List.cons_append, List.takeWhile_append_dropWhile]
    · simpa using Text.forall_mem_takeWhile (· ≠ '\n') rest _ member
    · have stop := Text.head?_dropWhile (· ≠ '\n') rest
      cases head : behind.head? with
      | none => exact .inl rfl
      | some c =>
          rw [head] at stop
          simpa using stop
  case h_2 c rest =>
    cases closed : closeComment? (c :: rest) with
    | none => exact ⟨_, [], (List.append_nil _).symm,
        .opened (closeComment?_eq_none_iff.1 closed) (by simp) rfl⟩
    | some found =>
        obtain ⟨body, first, inside, whole⟩ := closeComment?_eq_some_iff.1 closed
        refine ⟨'/' :: '*' :: (body ++ ['*', '/']), found.2, ?_, .block first⟩
        rw [whole, inside]
        rfl
  case h_3 c rest _ _ =>
    have blank : Token.isBlank c = true := by
      by_contra other
      exact gap (if_neg other)
    exact ⟨[c], rest, rfl, .blank blank⟩
  case h_4 => exact absurd rfl gap

theorem Idle.drop_gap {source : Text} (idle : Idle source) :
    Idle (source.drop (Token.gapLength source)) := by
  cases idle with
  | nil => exact .nil
  | gap isGap idle =>
      rw [isGap.length, List.drop_left]
      exact idle
  | semicolon idle => exact .semicolon idle

/-- Only the text behind a gap decides whether there is a statement. -/
theorem idle_drop_gap {source : Text} (gap : Token.gapLength source ≠ 0) :
    Idle (source.drop (Token.gapLength source)) ↔ Idle source := by
  refine ⟨fun idle => ?_, .drop_gap⟩
  obtain ⟨text, rest, rfl, isGap⟩ := exists_gap gap
  rw [isGap.length, List.drop_left] at idle
  exact .gap isGap idle

theorem IsGap.ne_nil {next : Option Char} {text : Text} (gap : IsGap next text) : text ≠ [] := by
  cases gap <;> simp

/-- Without a gap in front, there is no statement behind a semicolon or at the end only. -/
theorem Idle.of_solid {source : Text} (idle : Idle source) (solid : Token.gapLength source = 0) :
    source = [] ∨ ∃ rest, source = ';' :: rest ∧ Idle rest := by
  cases idle with
  | nil => exact .inl rfl
  | gap isGap _ =>
      rw [isGap.length] at solid
      exact absurd (List.eq_nil_of_length_eq_zero solid) isGap.ne_nil
  | semicolon idle => exact .inr ⟨_, rfl, idle⟩

namespace Token

@[simp] theorem make_kind (kind : TokenKind) (length offset : Nat) (source : Text) :
    (make kind length offset source).kind = kind :=
  rfl

/-- The kind and the length of a token of some characters. -/
structure Proper (token : TokenKind × Nat) : Prop where
  more : token.1 ≠ .finish
  some : token.2 ≠ 0

theorem proper_succ {kind : TokenKind} (more : kind ≠ .finish) (n : Nat) :
    Proper (kind, n + 1) :=
  ⟨more, Nat.succ_ne_zero n⟩

theorem quotedToken_proper {kind : TokenKind} (more : kind ≠ .finish) (quote : Char) (cs : Text) :
    Proper (quotedToken kind quote cs) := by
  unfold quotedToken
  split
  · exact proper_succ more _
  · exact proper_succ (by decide) _

theorem bracketToken_proper (cs : Text) : Proper (bracketToken cs) := by
  unfold bracketToken
  dsimp only
  split <;> exact proper_succ (by decide) _

theorem blobToken_proper (cs : Text) : Proper (blobToken cs) := by
  unfold blobToken
  dsimp only
  split
  · refine ⟨?_, Nat.succ_ne_zero _⟩
    dsimp only
    split <;> nofun
  · refine ⟨nofun, ?_⟩
    dsimp only
    omega

theorem digitsLength_ne_zero {isDigit : Char → Bool} {c : Char} (digit : isDigit c = true)
    (rest : Text) : digitsLength isDigit (c :: rest) ≠ 0 := by
  unfold digitsLength
  rw [if_pos digit]
  exact Nat.succ_ne_zero _

theorem numberToken_proper {c : Char} {rest : Text}
    (opens : Text.isDigit c = true ∨ c = '.' ∧ rest.head?.any Text.isDigit = true) :
    Proper (numberToken (c :: rest)) := by
  have either (tail : Nat) {n : Nat} (some_ : n ≠ 0) :
      Proper (if tail = 0 then (TokenKind.number, n) else (.illegal, n + tail)) := by
    split
    · exact ⟨nofun, some_⟩
    · exact ⟨nofun, fun none => some_ (Nat.eq_zero_of_add_eq_zero_right none)⟩
  have first (n : Nat) {m : Nat} (some_ : m ≠ 0) : (if n ≠ 0 then n else m) ≠ 0 := by
    split <;> assumption
  refine either _ (first _ ?_)
  obtain digit | ⟨rfl, digit⟩ := opens
  · have whole := digitsLength_ne_zero digit rest
    simp only [List.head?_cons, Option.any_some, digit, if_true]
    omega
  · simp [digit, Text.isDigit]

theorem variableToken_proper (cs : Text) : Proper (variableToken cs) := by
  have more (named : Nat) : (variableFrom named cs).1 ≠ .finish := by
    fun_induction variableFrom named cs with
    | case1 _ _ _ _ same ih => simpa [same] using ih
    | case2 _ _ _ _ _ _ _ same ih => simpa [same] using ih
    | case3 | case4 => nofun
    | case5 | case6 => split <;> nofun
  exact ⟨more 0, Nat.succ_ne_zero _⟩

/-- Some characters that no gap precedes begin with a token. -/
theorem scanHead_proper {source : Text} (some_ : source ≠ []) : Proper (scanHead source) := by
  fun_cases scanHead source with
  | case11 | case12 | case13 => exact quotedToken_proper (by decide) _ _
  | case14 => exact bracketToken_proper _
  | case15 | case16 => exact blobToken_proper _
  | case18 | case19 | case20 | case21 => exact variableToken_proper _
  | case22 _ digit => exact numberToken_proper (.inr ⟨rfl, digit⟩)
  | case24 => exact numberToken_proper (.inl ‹_›)
  | case25 => simpa [wordToken, ‹isNameChar _ = true›] using proper_succ (by decide) _
  | case28 => exact absurd rfl some_
  | _ => exact proper_succ (by decide) _

/-- A token that is a semicolon takes one character. -/
theorem isSemicolon_make {kind : TokenKind} {length offset : Nat} {source : Text}
    (semicolon : (make kind length offset source).isSemicolon = true) :
    ∃ rest, source = ';' :: rest ∧ source.drop length = rest := by
  simp only [isSemicolon, make, Bool.and_eq_true, beq_iff_eq] at semicolon
  obtain ⟨rfl, key⟩ := semicolon
  have taken : source.take length = [';'] := by
    simpa using congrArg String.toList key
  refine ⟨source.drop length, ?_, rfl⟩
  rw [← List.singleton_append, ← taken, List.take_append_drop]

theorem scan_ended (fuel offset : Nat) (source : Text) :
    Parser.Ended (scan fuel offset source) := by
  induction fuel generalizing offset source with
  | zero => exact .last rfl
  | succ fuel ih =>
      unfold scan
      dsimp only
      split
      · exact ih _ _
      · split
        · exact .last rfl
        · exact .cons ‹_› (ih _ _)

theorem scan_idle_iff {fuel offset : Nat} {source : Text} (enough : source.length ≤ fuel) :
    (∀ t ∈ scan fuel offset source, t.isSemicolon = true ∨ t.kind = .finish) ↔ Idle source := by
  induction fuel generalizing offset source with
  | zero =>
      obtain rfl := List.eq_nil_of_length_eq_zero (Nat.le_zero.1 enough)
      exact iff_of_true (by simp [scan]) .nil
  | succ fuel ih =>
      unfold scan
      dsimp only
      by_cases gap : gapLength source ≠ 0
      · rw [if_pos gap, ih (by rw [List.length_drop]; omega), idle_drop_gap gap]
      rw [if_neg gap]
      have solid : gapLength source = 0 := not_not.1 gap
      split
      case isTrue finish =>
        obtain rfl : source = [] := by
          by_contra some_
          exact (scanHead_proper some_).more finish
        exact iff_of_true (by simp) .nil
      case isFalse more =>
        rw [List.forall_mem_cons, make_kind, or_iff_left more]
        constructor
        · rintro ⟨semicolon, others⟩
          obtain ⟨rest, rfl, behind⟩ := isSemicolon_make semicolon
          rw [behind] at others
          exact .semicolon ((ih (Nat.le_of_succ_le_succ enough)).1 others)
        · intro idle
          obtain rfl | ⟨rest, rfl, behind⟩ := idle.of_solid solid
          · exact absurd rfl more
          · exact ⟨rfl, (ih (Nat.le_of_succ_le_succ enough)).2 behind⟩

/-- A token keeps the text that begins with it, and a semicolon leaves the tokens of the text
behind it. -/
structure Parts (source : Text) (t : Token) (after : List Token) : Prop where
  suffix : t.source <:+ source
  finish : t.kind = .finish → t.source = [] ∧ after = []
  semicolon : t.isSemicolon = true → ∃ rest, t.source = ';' :: rest ∧
    ((∀ u ∈ after, u.isSemicolon = true ∨ u.kind = .finish) ↔ Idle rest)

theorem parts_last {offset : Nat} {before after : List Token} {t : Token}
    (whole : [make .finish 0 offset []] = before ++ t :: after) : Parts [] t after := by
  cases before with
  | nil =>
      cases whole
      exact ⟨List.suffix_refl _, fun _ => ⟨rfl, rfl⟩, nofun⟩
  | cons => simp at whole

theorem scan_parts {fuel offset : Nat} {source : Text} {before after : List Token} {t : Token}
    (enough : source.length ≤ fuel) (whole : scan fuel offset source = before ++ t :: after) :
    Parts source t after := by
  induction fuel generalizing offset source before with
  | zero =>
      obtain rfl := List.eq_nil_of_length_eq_zero (Nat.le_zero.1 enough)
      exact parts_last whole
  | succ fuel ih =>
      unfold scan at whole
      dsimp only at whole
      split at whole
      case isTrue gap =>
        have parts := ih (by rw [List.length_drop]; omega) whole
        exact { parts with suffix := parts.suffix.trans (List.drop_suffix _ _) }
      case isFalse =>
        split at whole
        case isTrue finish =>
          obtain rfl : source = [] := by
            by_contra some_
            exact (scanHead_proper some_).more finish
          exact parts_last whole
        case isFalse more =>
          cases before with
          | nil =>
              obtain ⟨rfl, rfl⟩ := List.cons.inj whole
              refine ⟨List.suffix_refl _, fun finish => absurd finish more, fun semicolon => ?_⟩
              obtain ⟨rest, rfl, behind⟩ := isSemicolon_make semicolon
              rw [behind]
              exact ⟨rest, rfl, scan_idle_iff (Nat.le_of_succ_le_succ enough)⟩
          | cons first before =>
              have some_ : source ≠ [] := by
                rintro rfl
                exact more rfl
              have shorter := (scanHead_proper some_).some
              have parts := ih (by rw [List.length_drop]; omega) (List.cons.inj whole).2
              exact { parts with suffix := parts.suffix.trans (List.drop_suffix _ _) }

end Token

/-- Whether a text has no second statement: behind the semicolon that ends the first one there are
only more of them. -/
def isSingle (text : Text) : Bool :=
  ((dropSemicolons (Token.ofText text)).dropWhile fun t => !t.isSemicolon).all fun t =>
    t.isSemicolon || t.kind == .finish

/-- What the grammar does not change when variables are numbered. -/
def Token.outline (t : Token) : TokenKind × Bool × Text :=
  (t.kind, t.isSemicolon, t.source)

theorem numberVariables_outline (names : List (String × Nat)) (last : Nat) (tokens : List Token) :
    (numberVariables names last tokens).1.map Token.outline = tokens.map Token.outline := by
  fun_induction numberVariables names last tokens with
  | case1 => rfl
  | case2 => rfl
  | case3 => simp_all
  | case4 _ _ t _ _ isVariable _ _ _ =>
      have kind : t.kind = .variable := by simpa using isVariable
      simp_all [Token.outline, Token.isSemicolon]
      rfl

theorem inner_of_outline {t t' : Token} (same : t.outline = t'.outline) (inner : t.Inner) :
    t'.Inner := by
  simp only [Token.outline, Prod.mk.injEq] at same
  exact ⟨same.1 ▸ inner.more, same.2.1 ▸ inner.plain⟩

theorem dropSemicolons_eq (tokens : List Token) :
    dropSemicolons tokens = tokens.dropWhile Token.isSemicolon :=
  rfl

namespace Parser

theorem Ended.of_outline {tokens tokens' : List Token} (ended : Ended tokens)
    (same : tokens.map Token.outline = tokens'.map Token.outline) : Ended tokens' := by
  induction ended generalizing tokens' with
  | @last t finish =>
      obtain ⟨t', rfl, outline⟩ := List.map_eq_singleton_iff.1 same.symm
      exact .last ((Prod.mk.inj outline).1 ▸ finish)
  | cons more _ ih =>
      obtain ⟨t', rest, rfl, outline, others⟩ := List.map_eq_cons_iff.1 same.symm
      exact .cons ((Prod.mk.inj outline).1 ▸ more) (ih others.symm)

theorem Ended.dropSemicolons {tokens : List Token} (ended : Ended tokens) :
    Ended (dropSemicolons tokens) := by
  rw [dropSemicolons_eq]
  induction ended with
  | @last t finish =>
      have other : t.isSemicolon = false := by simp [Token.isSemicolon, finish]
      rw [List.dropWhile_cons_of_neg (ne_true_of_eq_false other)]
      exact .last finish
  | @cons t rest more ended ih =>
      cases semicolon : t.isSemicolon with
      | true =>
          rw [List.dropWhile_cons_of_pos semicolon]
          exact ih
      | false =>
          rw [List.dropWhile_cons_of_neg (ne_true_of_eq_false semicolon)]
          exact .cons more ended

theorem Leaves.split {tokens left : List Token} (leaves : Leaves tokens left) :
    ∃ inner, tokens = inner ++ left ∧ ∀ t ∈ inner, t.Inner := by
  induction leaves with
  | refl => exact ⟨[], rfl, nofun⟩
  | @take t _ _ first _ ih =>
      obtain ⟨inner, rfl, all⟩ := ih
      exact ⟨t :: inner, rfl, List.forall_mem_cons.2 ⟨first, all⟩⟩

end Parser

namespace Command

theorem explained_ends {r : Rules} {tokens left : List Token} {s : Option Explain × Statement}
    (run : explained r tokens = .ok (s, left)) :
    (left.headD Parser.endToken).kind = .finish ∨
      (left.headD Parser.endToken).isSemicolon = true := by
  obtain ⟨_, _, _, run⟩ := Parser.bind_ok run
  obtain ⟨_, mid, _, run⟩ := Parser.bind_ok run
  have peeked : Parser.peek mid = .ok (mid.headD Parser.endToken, mid) := rfl
  have tested : Parser.atSign ";" mid = .ok ((mid.headD Parser.endToken).isSemicolon, mid) := rfl
  rw [Parser.bind_run peeked, Parser.bind_run tested] at run
  split at run
  case isTrue ends =>
    cases run
    simpa only [Bool.or_eq_true, beq_iff_eq] using ends
  case isFalse => cases run

end Command

namespace Parsed

/-- The tokens of a text are those of its first statement, semicolons before it, and what follows
its semicolon. -/
theorem ofText_split {text : Text} {p : Parsed} (read : ofText text = .ok (some p)) :
    ∃ semicolons inner t after, Token.ofText text = semicolons ++ (inner ++ t :: after) ∧
      (∀ s ∈ semicolons, s.isSemicolon = true) ∧ inner ≠ [] ∧ (∀ s ∈ inner, s.Inner) ∧
      (t.kind = .finish ∨ t.isSemicolon = true) ∧ p.rest = t.source.drop 1 := by
  unfold ofText at read
  dsimp only at read
  split at read
  case h_1 => cases read
  case h_2 first others same =>
    split at read
    case isTrue => cases read
    case isFalse more =>
      obtain ⟨⟨⟨explain, statement⟩, left⟩, run, made⟩ := bind_result read
      cases made
      let tokens := Token.ofText text
      have outlines := numberVariables_outline [] 0 (dropSemicolons tokens)
      have ended := (Token.scan_ended _ _ _).dropSemicolons.of_outline outlines.symm
      have leaves := Parser.Enclosed.leaves ended run
      have ends := Command.explained_ends run
      obtain ⟨inner', whole, all⟩ := leaves.split
      obtain ⟨t', after', rfl, _⟩ := (leaves.ended ended).cons_cases
      rw [whole, List.map_append, List.map_cons] at outlines
      obtain ⟨inner, behind, cut, inners, others⟩ := List.map_eq_append_iff.1 outlines.symm
      obtain ⟨t, after, rfl, outline, _⟩ := List.map_eq_cons_iff.1 others
      simp only [Token.outline, Prod.mk.injEq] at outline
      obtain ⟨kind, semicolon, source⟩ := outline
      refine ⟨tokens.takeWhile Token.isSemicolon, inner, t, after, ?_, ?_, ?_, ?_, ?_, ?_⟩
      · rw [← cut, dropSemicolons_eq, List.takeWhile_append_dropWhile]
      · exact fun _ => List.mem_takeWhile_imp
      · rintro rfl
        obtain ⟨rfl, rfl⟩ := List.cons.inj (same.symm.trans cut)
        have opens := List.head?_dropWhile_not Token.isSemicolon tokens
        rw [← dropSemicolons_eq, same, List.head?_cons] at opens
        obtain finish | ends := ends
        · exact more (kind.trans finish)
        · exact absurd (semicolon.trans ends) (ne_true_of_eq_false opens)
      · intro s member
        obtain ⟨s', member', same⟩ := List.mem_map.1 (inners ▸ List.mem_map_of_mem member)
        exact inner_of_outline same (all s' member')
      · rw [kind, semicolon]
        exact ends
      · rw [source]
        rfl

/-- A text without a statement has no second one either. -/
theorem ofText_none {text : Text} (read : ofText text = .ok none) : isSingle text = true := by
  have ended : Parser.Ended (dropSemicolons (Token.ofText text)) :=
    (Token.scan_ended _ _ _).dropSemicolons
  obtain ⟨t, rest, same, ends⟩ := ended.cons_cases
  obtain ⟨finish, rfl⟩ : t.kind = .finish ∧ rest = [] := by
    obtain ends | ⟨more, _⟩ := ends
    · exact ends
    · unfold ofText at read
      simp only [same, if_neg more] at read
      obtain ⟨_, _, made⟩ := bind_result read
      cases made
  have other : t.isSemicolon = false := by simp [Token.isSemicolon, finish]
  rw [isSingle, same]
  simp [other]

/-- What is left of a text is behind a semicolon, if it is anything. -/
theorem ofText_rest {text : Text} {p : Parsed} (read : ofText text = .ok (some p)) :
    (∃ compiled, text.takeWhile (· ≠ '\x00') = compiled ++ p.rest ∧
      (p.rest = [] ∨ compiled.getLast? = some ';')) ∧
    (Idle p.rest ↔ isSingle text = true) := by
  obtain ⟨semicolons, inner, t, after, whole, lead, some_, all, ends, rest⟩ := ofText_split read
  have scanned : Token.ofText text = (semicolons ++ inner) ++ t :: after := by
    rw [whole, List.append_assoc]
  have parts := Token.scan_parts (Nat.le_refl _) scanned
  have single : isSingle text = ((t :: after).dropWhile fun t => !t.isSemicolon).all
      fun t => t.isSemicolon || t.kind == .finish := by
    obtain ⟨first, others, rfl⟩ := List.exists_cons_of_ne_nil some_
    have plain := fun s member => (all s member).plain
    rw [isSingle, whole, dropSemicolons_eq, List.dropWhile_append_of_pos lead, List.cons_append,
      List.dropWhile_cons_of_neg (ne_true_of_eq_false (plain first (.head _))), ← List.cons_append,
      List.dropWhile_append_of_pos fun s member => by simp [plain s member]]
  obtain ⟨read, behind⟩ := parts.suffix
  rw [rest, single]
  obtain finish | semicolon := ends
  · obtain ⟨source, rfl⟩ := parts.finish finish
    have other : t.isSemicolon = false := by simp [Token.isSemicolon, finish]
    rw [source]
    refine ⟨⟨text.takeWhile (· ≠ '\x00'), by simp, .inl rfl⟩, iff_of_true .nil ?_⟩
    simp [other]
  · obtain ⟨rest, source, idle⟩ := parts.semicolon semicolon
    rw [source] at behind ⊢
    refine ⟨⟨read ++ [';'], by rw [← behind, List.append_assoc]; rfl, .inr (by simp)⟩, ?_⟩
    rw [List.dropWhile_cons_of_neg (by simp [semicolon]), List.all_cons, semicolon]
    simpa using idle.symm

end Parsed

end SqlUnits.Sql
