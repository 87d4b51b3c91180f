import SqlUnits.Proofs.Check.Visit
import SqlUnits.Proofs.Text.Run
/-!
The texts of savepoints, as they are read: a savepoint is set, released or returned to under the
name that stands at the end.
-/

namespace SqlUnits.Sql

namespace Token

/-- A text that is one word wherever no character of a name follows it. -/
structure IsWord (word : Text) : Prop where
  opens : ∀ rest, scanHead (word ++ rest) = wordToken (word ++ rest)
  solid : ∀ rest, gapLength (word ++ rest) = 0
  chars : ∀ c ∈ word, isNameChar c

/-- The token of a word. -/
def word (offset : Nat) (text rest : Text) : Token :=
  ⟨.word, text, Text.upperString (String.ofList text), offset, text ++ rest⟩

variable {text rest : Text}

theorem scan_word (isWord : IsWord text) (stop : rest.head?.any isNameChar = false)
    (fuel offset : Nat) :
    scan (fuel + 1) offset (text ++ rest) =
      word offset text rest :: scan fuel (offset + Text.byteLength text) rest := by
  have head : scanHead (text ++ rest) = (.word, text.length) := by
    rw [isWord.opens, wordToken, Text.takeWhile_run isWord.chars stop]
  rw [scan, isWord.solid, if_neg (by decide), head]
  simp [make, word]

theorem scan_blanks {lead : Text} (blank : ∀ c ∈ lead, c = ' ') (fuel offset : Nat) :
    scan (fuel + lead.length) offset (lead ++ rest) = scan fuel (offset + lead.length) rest := by
  induction lead generalizing offset with
  | nil => rfl
  | cons c lead ih =>
      obtain ⟨rfl, others⟩ := List.forall_mem_cons.1 blank
      change scan (fuel + lead.length) (offset + 1) (lead ++ rest) = _
      rw [ih others, List.length_cons, Nat.add_assoc, Nat.add_comm 1]

theorem scan_blank (fuel offset : Nat) :
    scan (fuel + 1) offset (' ' :: rest) = scan fuel (offset + 1) rest :=
  rfl

theorem scan_semicolon (fuel offset : Nat) :
    scan (fuel + 1) offset (';' :: rest) =
      make .sign 1 offset (';' :: rest) :: scan fuel (offset + 1) rest :=
  rfl

theorem scan_nil (fuel offset : Nat) : scan fuel offset [] = [make .finish 0 offset []] := by
  cases fuel <;> rfl

theorem scan_last (isWord : IsWord text) (fuel offset : Nat) :
    scan (fuel + 1) offset text =
      [word offset text [], make .finish 0 (offset + Text.byteLength text) []] := by
  have scanned := @scan_word text [] isWord rfl fuel offset
  rwa [List.append_nil, scan_nil] at scanned

/-- A zero character ends a text, but comes behind what has none. -/
theorem takeWhile_whole (whole : '\x00' ∉ text) :
    (text ++ rest).takeWhile (· ≠ '\x00') = text ++ rest.takeWhile (· ≠ '\x00') := by
  refine List.takeWhile_append_of_pos fun c member => ?_
  simp only [decide_eq_true_eq]
  rintro rfl
  exact whole member

theorem ofText_eq_scan (whole : '\x00' ∉ text) : ofText text = scan text.length 0 text := by
  have all : text.takeWhile (· ≠ '\x00') = text := by
    have cut := @takeWhile_whole text [] whole
    rwa [List.append_nil, List.takeWhile_nil, List.append_nil] at cut
  rw [ofText, all]

theorem IsWord.whole (isWord : IsWord text) : '\x00' ∉ text := fun member => by
  have char := isWord.chars _ member
  revert char
  decide

/-- The first token of a text that opens with a word. -/
theorem ofText_word (isWord : IsWord text) (rest : Text) :
    ∃ behind tokens, ofText (text ++ ' ' :: rest) = word 0 text behind :: tokens := by
  let kept := rest.takeWhile (· ≠ '\x00')
  have cut : (text ++ ' ' :: rest).takeWhile (· ≠ '\x00') = text ++ ' ' :: kept :=
    takeWhile_whole isWord.whole
  obtain ⟨fuel, length⟩ : ∃ fuel, (text ++ ' ' :: kept).length = fuel + 1 :=
    ⟨text.length + kept.length, by simp; omega⟩
  refine ⟨' ' :: kept, scan fuel (0 + Text.byteLength text) (' ' :: kept), ?_⟩
  rw [ofText, cut, length, scan_word isWord rfl]

end Token

namespace Parser

variable {x : Parser α} {tokens left : List Token} {t : Token} {rest : List Token} {a : α}

theorem bind_run {k : α → Parser β} (first : x tokens = .ok (a, left)) :
    (x >>= k) tokens = k a left := by
  change (x tokens >>= fun (a, left) => k a left) = _
  rw [first]
  rfl

theorem map_run {f : α → β} (first : x tokens = .ok (a, left)) :
    (f <$> x) tokens = .ok (f a, left) := by
  change (x tokens >>= fun (a, left) => .ok (f a, left)) = _
  rw [first]
  rfl

theorem bind_ok {k : α → Parser β} {b : β} (run : (x >>= k) tokens = .ok (b, left)) :
    ∃ a mid, x tokens = .ok (a, mid) ∧ k a mid = .ok (b, left) := by
  obtain ⟨⟨a, mid⟩, first, rest⟩ := bind_result run
  exact ⟨a, mid, first, rest⟩

theorem peek_run (t : Token) (rest : List Token) : peek (t :: rest) = .ok (t, t :: rest) :=
  rfl

theorem word?_run (w : String) :
    word? w (t :: rest) =
      if t.kind = .word ∧ t.key = w then .ok (true, rest) else .ok (false, t :: rest) := by
  change (if t.kind == .word && t.key == w then _ else _ : Parser Bool) (t :: rest) = _
  by_cases found : t.kind = .word ∧ t.key = w
  · rw [if_pos found, if_pos (by simp [found])]
    change Except.ok (true, if t.kind = .finish then [t] else rest) = _
    rw [if_neg (by simp [found])]
  · rw [if_neg found, if_neg (by simpa using found)]
    rfl

theorem word?_other {w : String} (other : t.key ≠ w) :
    word? w (t :: rest) = .ok (false, t :: rest) :=
  (word?_run w).trans (if_neg fun same => other same.2)

theorem name_run {s : String} (named : Token.name? t = some s) (more : t.kind ≠ .finish) :
    name (t :: rest) = .ok (s, rest) := by
  have taken : taken? Token.name? (t :: rest) = .ok (some s, rest) := by
    rw [taken?, bind_run (peek_run t rest), named]
    change Except.ok (some s, if t.kind = .finish then [t] else rest) = _
    rw [if_neg more]
  exact bind_run taken

/-- Whatever a parser reads, it yields something of a kind. -/
def Yields (kind : α → Prop) (x : Parser α) : Prop :=
  ∀ tokens a left, x tokens = .ok (a, left) → kind a

namespace Yields

theorem bind {kind : β → Prop} {x : Parser α} {k : α → Parser β} (after : ∀ a, Yields kind (k a)) :
    Yields kind (x >>= k) := by
  intro tokens b left run
  obtain ⟨a, mid, _, run⟩ := bind_ok run
  exact after a mid b left run

theorem map {kind : β → Prop} (x : Parser α) {f : α → β} (each : ∀ a, kind (f a)) :
    Yields kind (f <$> x) := by
  rw [map_eq_pure_bind]
  refine bind fun a tokens b left run => ?_
  cases run
  exact each a

theorem pure {kind : α → Prop} {a : α} (is : kind a) : Yields kind (pure a) := by
  intro tokens b left run
  cases run
  exact is

theorem unexpected {kind : α → Prop} : Yields kind (Parser.unexpected : Parser α) :=
  bind fun _ _ _ _ run => nomatch run

end Yields

end Parser

namespace Command

open Token (word)

/-- A word that is a name, and not one of those that may stand in front of it. -/
structure IsName (name : Text) : Prop where
  isWord : Token.IsWord name
  free : Text.upperString (String.ofList name) ∉ "SAVEPOINT" :: Parser.reserved

/-- The words that open a statement about savepoints lead to what stands behind them. -/
theorem command_transaction (r : Rules) {t : Token} {tokens : List Token} (isWord : t.kind = .word)
    (key : t.key ∈ ["SAVEPOINT", "RELEASE", "ROLLBACK"]) :
    command r (t :: tokens) = (Statement.transaction <$> transaction t.key) tokens := by
  obtain ⟨kind, text, key', offset, source⟩ := t
  subst isWord
  simp only [List.mem_cons, List.not_mem_nil, or_false] at key
  unfold command
  rw [Parser.bind_run (Parser.peek_run _ _)]
  rcases key with rfl | rfl | rfl
  all_goals
    simp only [bne_self_eq_false, Bool.false_eq_true, if_false, String.reduceEq, imp_self,
      List.contains_eq_mem, List.mem_cons, List.not_mem_nil, or_self, or_false, or_true,
      decide_true, if_true]
    rfl

variable {name : Text} (isName : IsName name) (r : Rules) (offset : Nat) (behind : Text)
  (rest : List Token)

include isName

theorem name_word :
    Parser.name (word offset name behind :: rest) = .ok (String.ofList name, rest) := by
  refine Parser.name_run ?_ (by simp [word])
  have free : Parser.reserved.contains (Text.upperString (String.ofList name)) = false := by
    have outside := fun inside => isName.free (List.mem_cons_of_mem "SAVEPOINT" inside)
    simpa using outside
  change (if Parser.reserved.contains (Text.upperString (String.ofList name)) then none
    else some (String.ofList name)) = _
  rw [free]
  rfl

theorem savepointName_word :
    savepointName (word offset name behind :: rest) = .ok (String.ofList name, rest) := by
  have other : (word offset name behind).key ≠ "SAVEPOINT" := fun same =>
    isName.free (same ▸ List.mem_cons_self)
  exact (Parser.bind_run (Parser.word?_other other)).trans (name_word isName offset behind rest)

theorem command_savepoint (start : Nat) (source : Text) :
    command r (word start "SAVEPOINT".toList source :: word offset name behind :: rest) =
      .ok (.transaction (.savepoint (String.ofList name)), rest) := by
  rw [command_transaction r rfl (by change "SAVEPOINT" ∈ _; decide)]
  exact Parser.map_run (Parser.map_run (name_word isName offset behind rest))

theorem command_release (start : Nat) (source : Text) :
    command r (word start "RELEASE".toList source :: word offset name behind :: rest) =
      .ok (.transaction (.release (String.ofList name)), rest) := by
  rw [command_transaction r rfl (by change "RELEASE" ∈ _; decide)]
  exact Parser.map_run (Parser.map_run (savepointName_word isName offset behind rest))

theorem command_rollbackTo (start second : Nat) (source more : Text) :
    command r (word start "ROLLBACK".toList source :: word second "TO".toList more ::
        word offset name behind :: rest) =
      .ok (.transaction (.rollbackTo (String.ofList name)), rest) := by
  have tail : transactionTail (word second "TO".toList more :: word offset name behind :: rest) =
      .ok ((), word second "TO".toList more :: word offset name behind :: rest) :=
    Parser.bind_run (Parser.word?_other (by change "TO" ≠ "TRANSACTION"; decide))
  have goal : Parser.word? "TO" (word second "TO".toList more :: word offset name behind :: rest) =
      .ok (true, word offset name behind :: rest) :=
    (Parser.word?_run "TO").trans (if_pos ⟨rfl, rfl⟩)
  rw [command_transaction r rfl (by change "ROLLBACK" ∈ _; decide)]
  refine Parser.map_run ((Parser.bind_run tail).trans ((Parser.bind_run goal).trans ?_))
  exact Parser.map_run (savepointName_word isName offset behind rest)

end Command

namespace Parsed

open Token (word)

variable {text keyword behind : Text} {start : Nat} {t : Token} {tokens rest : List Token}
  {s : Statement}

/-- A text whose first statement opens with a word, and has no variables. -/
theorem ofText_of_command (scanned : Token.ofText text = word start keyword behind :: tokens)
    (plain : Text.upperString (String.ofList keyword) ≠ "EXPLAIN")
    (unnumbered : numberVariables [] 0 (word start keyword behind :: tokens) =
      (word start keyword behind :: tokens, 0))
    (command : ∀ r, Command.command r (word start keyword behind :: tokens) = .ok (s, t :: rest))
    (ends : t.kind = .finish ∨ t.kind = .sign ∧ t.key = ";") :
    ofText text = .ok (some ⟨none, s, 0, t.source.drop 1⟩) := by
  have explained (r : Rules) :
      Command.explained r (word start keyword behind :: tokens) = .ok ((none, s), t :: rest) := by
    have skip : Command.explain (word start keyword behind :: tokens) =
        .ok (none, word start keyword behind :: tokens) :=
      Parser.bind_run (Parser.word?_other plain)
    refine (Parser.bind_run skip).trans ((Parser.bind_run (command r)).trans ?_)
    obtain ⟨kind, _, key, _, _⟩ := t
    rcases ends with rfl | ⟨rfl, rfl⟩ <;> rfl
  have kept : dropSemicolons (word start keyword behind :: tokens) =
      word start keyword behind :: tokens :=
    rfl
  unfold ofText
  rw [scanned]
  simp only [kept, unnumbered]
  change (Command.explained _ (word start keyword behind :: tokens) >>= _) = _
  rw [explained]
  rfl

variable {name : Text} (isName : Command.IsName name)

include isName

theorem ofText_savepoint :
    ofText ("SAVEPOINT ".toList ++ name) =
      .ok (some ⟨none, .transaction (.savepoint (String.ofList name)), 0, []⟩) := by
  have opens : Token.IsWord "SAVEPOINT".toList :=
    ⟨fun _ => rfl, fun _ => rfl, List.all_eq_true.1 rfl⟩
  have scanned : Token.ofText ("SAVEPOINT ".toList ++ name) =
      [word 0 "SAVEPOINT".toList (' ' :: name), word 10 name [],
        Token.make .finish 0 (10 + Text.byteLength name) []] := by
    obtain ⟨fuel, length⟩ : ∃ fuel, ("SAVEPOINT ".toList ++ name).length = fuel + 3 :=
      ⟨name.length + 7, by simp⟩
    rw [Token.ofText_eq_scan (by simpa using isName.isWord.whole), length,
      show "SAVEPOINT ".toList ++ name = "SAVEPOINT".toList ++ ' ' :: name from rfl,
      Token.scan_word opens rfl, Token.scan_blank, Token.scan_last isName.isWord]
    rfl
  exact ofText_of_command scanned (by decide) rfl
    (fun r => Command.command_savepoint isName r _ _ _ _ _) (.inl rfl)

theorem ofText_release {lead : Text} (blank : ∀ c ∈ lead, c = ' ') :
    ofText (lead ++ ("RELEASE ".toList ++ name)) =
      .ok (some ⟨none, .transaction (.release (String.ofList name)), 0, []⟩) := by
  have opens : Token.IsWord "RELEASE".toList := ⟨fun _ => rfl, fun _ => rfl, List.all_eq_true.1 rfl⟩
  have scanned : Token.ofText (lead ++ ("RELEASE ".toList ++ name)) =
      [word (0 + lead.length) "RELEASE".toList (' ' :: name),
        word (0 + lead.length + 7 + 1) name [],
        Token.make .finish 0 (0 + lead.length + 7 + 1 + Text.byteLength name) []] := by
    have solid : '\x00' ∉ lead := fun inside => by simpa using blank _ inside
    obtain ⟨fuel, length⟩ :
        ∃ fuel, (lead ++ ("RELEASE ".toList ++ name)).length = fuel + 3 + lead.length :=
      ⟨name.length + 5, by simp; omega⟩
    rw [Token.ofText_eq_scan (by simpa using ⟨solid, isName.isWord.whole⟩), length,
      Token.scan_blanks blank,
      show "RELEASE ".toList ++ name = "RELEASE".toList ++ ' ' :: name from rfl,
      Token.scan_word opens rfl, Token.scan_blank, Token.scan_last isName.isWord]
    rfl
  exact ofText_of_command scanned (by decide) rfl
    (fun r => Command.command_release isName r _ _ _ _ _) (.inl rfl)

theorem ofText_rollbackTo (solid : '\x00' ∉ behind) :
    ofText ("ROLLBACK TO ".toList ++ (name ++ ';' :: behind)) =
      .ok (some ⟨none, .transaction (.rollbackTo (String.ofList name)), 0, behind⟩) := by
  have opens : Token.IsWord "ROLLBACK".toList :=
    ⟨fun _ => rfl, fun _ => rfl, List.all_eq_true.1 rfl⟩
  have second : Token.IsWord "TO".toList := ⟨fun _ => rfl, fun _ => rfl, List.all_eq_true.1 rfl⟩
  obtain ⟨others, scanned⟩ : ∃ others,
      Token.ofText ("ROLLBACK TO ".toList ++ (name ++ ';' :: behind)) =
        word 0 "ROLLBACK".toList (' ' :: ("TO".toList ++ ' ' :: (name ++ ';' :: behind))) ::
          word 9 "TO".toList (' ' :: (name ++ ';' :: behind)) :: word 12 name (';' :: behind) ::
          Token.make .sign 1 (12 + Text.byteLength name) (';' :: behind) :: others := by
    obtain ⟨fuel, length⟩ :
        ∃ fuel, ("ROLLBACK TO ".toList ++ (name ++ ';' :: behind)).length = fuel + 6 :=
      ⟨name.length + behind.length + 7, by simp; omega⟩
    refine ⟨Token.scan fuel (12 + Text.byteLength name + 1) behind, ?_⟩
    rw [Token.ofText_eq_scan (by simpa using ⟨isName.isWord.whole, solid⟩), length,
      show "ROLLBACK TO ".toList ++ (name ++ ';' :: behind) =
        "ROLLBACK".toList ++ ' ' :: ("TO".toList ++ ' ' :: (name ++ ';' :: behind)) from rfl,
      Token.scan_word opens rfl, Token.scan_blank, Token.scan_word second rfl, Token.scan_blank,
      Token.scan_word isName.isWord rfl, Token.scan_semicolon]
    rfl
  exact ofText_of_command scanned (by decide) rfl
    (fun r => Command.command_rollbackTo isName r _ _ _ _ _ _ _) (.inr ⟨rfl, rfl⟩)

end Parsed

/-! Statements that set or close a transaction, and texts that cannot be such statements. -/

def Statement.isTransaction : Statement → Bool
  | .transaction _ => true
  | _ => false

/-- Whether a statement opens or closes transactions when it runs. -/
def Parsed.controls (p : Parsed) : Bool :=
  p.explain.isNone && p.statement.isTransaction

/-- Whether the first statement of a text opens or closes transactions. -/
def controlsTransaction (sql : String) : Bool :=
  match Parsed.ofText sql.toList with
  | .ok (some p) => p.controls
  | _ => false

namespace Command

theorem withCommon_isTransaction (r : Rules) :
    Parser.Yields (fun s => s.isTransaction = false) (withCommon r) := by
  refine .bind fun common => .bind fun t => ?_
  split
  · exact .unexpected
  · split
    · exact .bind fun _ => .bind fun c => .map _ fun _ => rfl
    · exact .bind fun _ => .map _ fun _ => rfl
    · exact .bind fun _ => .map _ fun _ => rfl
    · exact .bind fun _ => .map _ fun _ => rfl
    · exact .map _ fun _ => rfl

theorem command_isTransaction (r : Rules) {t : Token} {tokens left : List Token} {s : Statement}
    (isWord : t.kind = .word) (key : t.key ∈ ["SELECT", "UPDATE"])
    (read : command r (t :: tokens) = .ok (s, left)) : s.isTransaction = false := by
  have plain : command r (t :: tokens) = withCommon r (t :: tokens) := by
    obtain ⟨kind, text, key', offset, source⟩ := t
    subst isWord
    simp only [List.mem_cons, List.not_mem_nil, or_false] at key
    unfold command
    rw [Parser.bind_run (Parser.peek_run _ _)]
    rcases key with rfl | rfl
    all_goals
      simp only [bne_self_eq_false, Bool.false_eq_true, if_false, String.reduceEq, imp_self,
        List.contains_eq_mem, List.mem_cons, List.not_mem_nil, or_self, decide_false]
  exact withCommon_isTransaction r _ _ _ (plain ▸ read)

theorem explained_isTransaction {r : Rules} {t : Token} {tokens left : List Token}
    {read : Option Explain × Statement} (isWord : t.kind = .word)
    (key : t.key ∈ ["SELECT", "UPDATE"])
    (explained : Command.explained r (t :: tokens) = .ok (read, left)) :
    read.2.isTransaction = false := by
  have plain : t.key ≠ "EXPLAIN" := fun same => by
    rw [same] at key
    revert key
    decide
  have skip : explain (t :: tokens) = .ok (none, t :: tokens) :=
    Parser.bind_run (Parser.word?_other plain)
  unfold Command.explained at explained
  rw [Parser.bind_run skip] at explained
  obtain ⟨s, mid, found, ends⟩ := Parser.bind_ok explained
  have quiet := command_isTransaction r isWord key found
  obtain ⟨next, _, _, ends⟩ := Parser.bind_ok ends
  obtain ⟨semicolon, _, _, ends⟩ := Parser.bind_ok ends
  split at ends
  · cases ends
    exact quiet
  · obtain ⟨_, _, _, refused⟩ := Parser.bind_ok ends
    cases refused

end Command

theorem numberVariables_word (names : List (String × Nat)) (last start : Nat)
    (keyword behind : Text) (tokens : List Token) :
    ∃ others, (numberVariables names last (Token.word start keyword behind :: tokens)).1 =
      Token.word start keyword behind :: others :=
  ⟨_, rfl⟩

/-- A query or an update neither opens nor closes a transaction, whatever it goes on with. -/
theorem controlsTransaction_of_word {sql : String} {keyword rest : Text}
    (isWord : Token.IsWord keyword) (written : sql.toList = keyword ++ ' ' :: rest)
    (key : Text.upperString (String.ofList keyword) ∈ ["SELECT", "UPDATE"]) :
    controlsTransaction sql = false := by
  obtain ⟨behind, tokens, scanned⟩ := Token.ofText_word isWord rest
  have kept : dropSemicolons (Token.word 0 keyword behind :: tokens) =
      Token.word 0 keyword behind :: tokens :=
    rfl
  have more : (Token.word 0 keyword behind).kind ≠ .finish := nofun
  unfold controlsTransaction Parsed.ofText
  rw [written, scanned]
  simp only [kept, if_neg more]
  obtain ⟨others, numbered⟩ := numberVariables_word [] 0 0 keyword behind tokens
  rcases both : numberVariables [] 0 (Token.word 0 keyword behind :: tokens) with ⟨first, count⟩
  rw [both] at numbered
  obtain rfl : first = _ := numbered
  simp only
  cases explained : Command.explained
      (Rules.at ((Token.word 0 keyword behind :: others).length + 1))
      (Token.word 0 keyword behind :: others) with
  | error e => rfl
  | ok pair =>
      have quiet := Command.explained_isTransaction rfl key explained
      exact (congrArg (_ && ·) quiet).trans (Bool.and_false _)

theorem controlsTransaction_select (rest : String) :
    controlsTransaction ("SELECT " ++ rest) = false := by
  have opens : Token.IsWord "SELECT".toList := ⟨fun _ => rfl, fun _ => rfl, List.all_eq_true.1 rfl⟩
  exact controlsTransaction_of_word opens String.toList_append (by decide)

theorem controlsTransaction_update (rest : String) :
    controlsTransaction ("UPDATE " ++ rest) = false := by
  have opens : Token.IsWord "UPDATE".toList := ⟨fun _ => rfl, fun _ => rfl, List.all_eq_true.1 rfl⟩
  exact controlsTransaction_of_word opens String.toList_append (by decide)

end SqlUnits.Sql
