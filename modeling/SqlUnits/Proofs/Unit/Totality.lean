import SqlUnits.Proofs.Query.Leftmost
import SqlUnits.Proofs.Unit.Standing
/-!
Readers keep to their text. From a place of a text a reader goes on to a later one, or fails at a
place where there is what its problem names. So nothing is cut but between two characters, and no
reader is out of steps before it is done.
-/

namespace SqlUnits

/-- What is before and behind the place that a problem is reported for. A reader that is out of
steps, or cuts outside its text, has no such place. -/
def ScanProblem.Names (before rest : Text) : ScanProblem → Prop
  | .expected _ found => rest.head? = found
  | .unitTwice => "unit".toList <+: rest
  | .rowTwice name | .methodTwice name | .paramTwice name | .unknownItem name | .unknownRow name
  | .noFields name | .needsType name | .unknownStatement name | .notValueType name
  | .notSample name | .invalidNumber name => name.toList <+: rest
  | .missingUnit => before = []
  | .noSql => rest.head? = some '\x7b'
  | .invalidHex => rest.head? = some 'x' ∨ rest.head? = some 'X'
  | .unterminatedString => Query.Unclosed .stringLiteral rest
  | .block (.unclosedBlock offset) => offset = Text.byteLength before ∧ rest.head? = some '\x7b'
  | .block (.unterminated construct offset) =>
      offset = Text.byteLength before ∧ Query.Unclosed construct rest
  | .block (.numberedPlaceholder _) => False
  | .noProgress => False

namespace Scanner

variable {text : Text} {c d : Cursor} {lines : LineIndex}

/-- The offset of a cursor cuts the text, and what it is to read is behind the cut. -/
def Place (text : Text) (c : Cursor) : Prop :=
  ∃ before, Text.splitAtByte? c.offset text = some (before, c.rest)

/-- A fault is at a place of the text, and its problem names what is there. -/
def Fault.Real (text : Text) (f : Fault) : Prop :=
  ∃ before rest, Text.splitAtByte? f.offset text = some (before, rest) ∧
    f.problem.Names before rest

theorem place_iff : Place text c ↔ Before ⟨0, text⟩ c := by
  constructor
  · rintro ⟨before, cut⟩
    obtain ⟨whole, length⟩ := Text.splitAtByte?_eq_some.1 cut
    exact ⟨before, whole, length.symm.trans (Nat.zero_add _).symm⟩
  · rintro ⟨before, whole, offset⟩
    exact ⟨before, Text.splitAtByte?_eq_some.2 ⟨whole, ((Nat.zero_add _).symm.trans offset.symm)⟩⟩

theorem Place.start (text : Text) : Place text ⟨0, text⟩ :=
  place_iff.2 (.refl _)

namespace Place

theorem go (place : Place text c) (ahead : Before c d) : Place text d :=
  place_iff.2 ((place_iff.1 place).trans ahead)

theorem skip (place : Place text c) : Place text c.skip :=
  place.go c.before_skip

theorem slice {t : Text} (place : Place text c) (stretch : Stretch c t d) :
    Text.slice? text ⟨c.offset, d.offset⟩ = some t := by
  obtain ⟨before, cut⟩ := place
  obtain ⟨rfl, length⟩ := Text.splitAtByte?_eq_some.1 cut
  rw [stretch.offset, ← length, stretch.rest]
  exact Text.slice?_append before t d.rest

theorem real {problem : ScanProblem} (place : Place text c)
    (names : ∀ before, Text.byteLength before = c.offset → problem.Names before c.rest) :
    Fault.Real text ⟨c.offset, problem⟩ := by
  obtain ⟨before, cut⟩ := place
  exact ⟨before, c.rest, cut, names before (Text.splitAtByte?_eq_some.1 cut).2⟩

end Place

theorem Fault.Real.le {f : Fault} (real : f.Real text) : f.offset ≤ Text.byteLength text := by
  obtain ⟨before, rest, cut, _⟩ := real
  obtain ⟨rfl, length⟩ := Text.splitAtByte?_eq_some.1 cut
  rw [← length, Text.byteLength_append]
  exact Nat.le_add_right _ _

theorem Word.begins {w : Ident} (word : Word c w d) : w.name.toList <+: c.rest := by
  obtain ⟨_, _, t, stretch, gap, rfl, _⟩ := word
  rw [stretch.rest, List.append_assoc]
  exact List.prefix_append _ _

theorem Word.real {w : Ident} {problem : ScanProblem} (place : Place text c) (word : Word c w d)
    (names : ∀ before, problem.Names before c.rest) :
    Fault.Real text ⟨w.span.start, problem⟩ := by
  rw [word.span]
  exact place.real fun before _ => names before

/-- A reader goes on in the text, or fails at a place of it. -/
structure Keeps (text : Text) (read : Scan α) (c : Cursor) : Prop where
  ahead : ∀ {a d}, read c = .ok (a, d) → Before c d
  real : ∀ {f}, read c = .error f → f.Real text

theorem bind_eq_error {read : Scan α} {next : α → Scan β} {f : Fault} :
    (read >>= next) c = .error f ↔
      read c = .error f ∨ ∃ a m, read c = .ok (a, m) ∧ next a m = .error f := by
  change (read c >>= fun (a, m) => next a m) = _ ↔ _
  cases read c with
  | error g => simp [bind, Except.bind]
  | ok pair =>
      obtain ⟨a, m⟩ := pair
      constructor
      · exact fun second => .inr ⟨a, m, rfl, second⟩
      · rintro (⟨⟨⟩⟩ | ⟨_, _, same, second⟩)
        cases same
        exact second

namespace Keeps

variable {read read' : Scan α} {next : α → Scan β}

theorem pure (a : α) : Keeps text (pure a) c :=
  ⟨by rintro _ _ ⟨⟩; exact .refl c, nofun⟩

theorem failAt {offset : Nat} {problem : ScanProblem} (real : Fault.Real text ⟨offset, problem⟩) :
    Keeps text (failAt offset problem : Scan α) c :=
  ⟨nofun, by rintro _ ⟨⟩; exact real⟩

theorem bind (first : Keeps text read c) (place : Place text c)
    (second : ∀ a m, read c = .ok (a, m) → Place text m → Keeps text (next a) m) :
    Keeps text (read >>= next) c := by
  constructor
  · intro b e succeeds
    obtain ⟨a, m, one, two⟩ := bind_eq_ok.1 succeeds
    have there := first.ahead one
    exact there.trans ((second a m one (place.go there)).ahead two)
  · intro f fails
    rcases bind_eq_error.1 fails with one | ⟨a, m, one, two⟩
    · exact first.real one
    · exact (second a m one (place.go (first.ahead one))).real two

theorem bind_pure (first : Keeps text read c) (place : Place text c) (f : α → β) :
    Keeps text (read >>= fun a => Pure.pure (f a)) c :=
  first.bind place fun _ _ _ _ => .pure _

theorem map (first : Keeps text read c) (place : Place text c) (f : α → β) :
    Keeps text (f <$> read) c := by
  rw [map_eq_pure_bind]
  exact first.bind_pure place f

theorem get {f : Cursor → Scan α} (keeps : Keeps text (f c) c) : Keeps text (get >>= f) c :=
  ⟨fun succeeds => keeps.ahead succeeds, fun fails => keeps.real fails⟩

/-- A reader that goes on as another one does from a place ahead. -/
theorem of_eq (same : read c = read' d) (ahead : Before c d) (keeps : Keeps text read' d) :
    Keeps text read c :=
  ⟨fun succeeds => ahead.trans (keeps.ahead (same.symm.trans succeeds)),
    fun fails => keeps.real (same.symm.trans fails)⟩

end Keeps

theorem keeps_peek (c : Cursor) : Keeps text peek c := by
  refine ⟨fun read => ?_, nofun⟩
  cases read
  exact c.before_skip

theorem keeps_unexpected (place : Place text c) (what : String) :
    Keeps text (unexpected what : Scan α) c := by
  refine ⟨nofun, fun fails => ?_⟩
  cases fails
  exact place.skip.real fun _ _ => rfl

theorem keeps_eat (sign : Char) (c : Cursor) : Keeps text (eat sign) c := by
  constructor
  · intro b d read
    rw [eat_eq] at read
    split at read
    · rename_i ahead
      obtain ⟨more, whole⟩ := List.head?_eq_some_iff.1 ahead
      cases read
      refine c.before_skip.trans ⟨[sign], ?_, rfl⟩
      rw [whole]
      rfl
    · cases read
      exact c.before_skip
  · intro f fails
    rw [eat_eq] at fails
    split at fails <;> cases fails

/-- What is left to read does not grow. -/
theorem eat_shrinks {sign : Char} {b : Bool} (eaten : eat sign c = .ok (b, d)) :
    d.skip.rest.length ≤ c.skip.rest.length := by
  rcases reaches_eat.1 ⟨d, eaten, rfl⟩ with ⟨_, here⟩ | ⟨_, _, same⟩
  · exact here.shorter.le
  · rw [same]

theorem keeps_expect (place : Place text c) (sign : Char) : Keeps text (expect sign) c := by
  refine (keeps_eat sign c).bind place fun b m _ there => ?_
  split
  · exact .pure _
  · exact keeps_unexpected there _

theorem keeps_ident (place : Place text c) (what : String) : Keeps text (ident what) c := by
  constructor
  · intro w d read
    obtain ⟨_, stretch, _⟩ := ident_eq_ok.1 read
    exact c.before_skip.trans ⟨_, stretch⟩
  · intro f fails
    rw [ident_eq] at fails
    dsimp only at fails
    split at fails
    · exact (keeps_unexpected place.skip what).real fails
    · cases fails

/-- No quote closes a text in which all of them come in pairs. -/
theorem paired_of_quotedBody? {cs : Text} (open_ : quotedBody? cs = none) :
    Query.Paired '\'' cs := by
  fun_induction quotedBody? cs with
  | case1 => exact .nil
  | case2 rest ih => exact .pair (ih (Option.map_eq_none_iff.1 open_))
  | case3 => cases open_
  | case4 x rest _ other ih => exact .other other (ih (Option.map_eq_none_iff.1 open_))

theorem keeps_quoted (place : Place text c) : Keeps text quoted c := by
  refine ⟨fun read => ?_, fun fails => ?_⟩
  · obtain ⟨stretch, _⟩ := quoted_eq_ok.1 read
    exact c.before_skip.trans ⟨_, stretch⟩
  · rw [quoted_eq] at fails
    rcases bind_eq_error.1 fails with opens | ⟨_, m, opened, open_⟩
    · exact (keeps_expect place '\'').real opens
    · have first := expect_eq_ok.1 opened
      unfold closing at open_
      cases found : quotedBody? m.rest with
      | some pair =>
          rw [found] at open_
          cases open_
      | none =>
          rw [found] at open_
          cases open_
          have back : m.offset - 1 = c.skip.offset := by
            rw [first.offset]
            rfl
          rw [back]
          refine place.skip.real fun _ _ => ?_
          rw [first.rest]
          exact .stringLiteral (paired_of_quotedBody? found)

theorem keeps_number {x : Char} (place : Place text c) (ahead : c.rest.head? = some x)
    (starts : isNumberStart x = true) : Keeps text number c := by
  refine ⟨fun read => ?_, fun fails => ?_⟩
  · obtain ⟨tail, stretch, _⟩ := (number_eq_ok ahead starts).1 read
    exact ⟨_, stretch⟩
  · obtain ⟨offset, rest, rfl⟩ := Cursor.exists_cons ahead
    rw [number_eq] at fails
    cases value : Sample.parseNumber? (x :: numberRun x rest) with
    | some sample =>
        rw [value] at fails
        cases fails
    | none =>
        rw [value] at fails
        cases fails
        refine place.real fun _ _ => ?_
        change (String.ofList _).toList <+: _
        rw [String.toList_ofList]
        exact List.cons_prefix_cons.2 ⟨rfl, (numberRun_cut x rest).1⟩

theorem word_of_ident {what : String} {w : Ident} (read : ident what c = .ok (w, d)) :
    Word c.skip w d.skip :=
  reaches_ident.1 ⟨d, read, rfl⟩

/-- A problem that is reported where an identifier is. -/
theorem Keeps.failAt_word {what : String} {w : Ident} {m e : Cursor} {problem : ScanProblem}
    (place : Place text c) (read : ident what c = .ok (w, m))
    (names : ∀ before, problem.Names before c.skip.rest) :
    Keeps text (Scanner.failAt w.span.start problem : Scan α) e :=
  .failAt ((word_of_ident read).real place.skip names)

theorem keeps_wordSample {what : String} {w : Ident} (place : Place text c)
    (read : ident what c = .ok (w, d)) : Keeps text (wordSample w) d := by
  have there := place.go ((keeps_ident place what).ahead read)
  have begins := (word_of_ident read).begins
  unfold wordSample
  refine .get ?_
  dsimp only
  split
  · exact .pure _
  · exact .pure _
  · exact .pure _
  · exact (keeps_quoted there).bind_pure there _
  · exact (keeps_quoted there).bind_pure there _
  · split
    · rename_i hex
      refine (keeps_quoted there).bind there fun body m _ _ => ?_
      split
      · exact .pure _
      · refine .failAt_word place read fun _ => ?_
        obtain ⟨more, whole⟩ := begins
        change c.skip.rest.head? = _ ∨ c.skip.rest.head? = _
        simp only [Bool.and_eq_true, Bool.or_eq_true, beq_iff_eq] at hex
        rcases hex.1 with name | name
        · exact .inl (by rw [← whole, name]; rfl)
        · exact .inr (by rw [← whole, name]; rfl)
    · exact .failAt_word place read fun _ => begins

theorem keeps_sample (place : Place text c) : Keeps text sample c := by
  have same := sample_eq c
  cases first : c.skip.rest.head? with
  | none =>
      rw [first] at same
      exact .of_eq same c.before_skip (keeps_unexpected place.skip _)
  | some x =>
      simp only [first] at same
      split at same
      · exact .of_eq same c.before_skip ((keeps_quoted place.skip).bind_pure place.skip _)
      · split at same
        · rename_i starts
          exact .of_eq same c.before_skip (keeps_number place.skip first starts)
        · refine .of_eq same c.before_skip ((keeps_ident place.skip _).bind place.skip ?_)
          exact fun w m read _ => keeps_wordSample place.skip read

theorem keeps_checkedValueType {what : String} {w : Ident} (place : Place text c)
    (read : ident what c = .ok (w, d)) : Keeps text (checkedValueType w) d := by
  unfold checkedValueType
  split
  · exact .failAt_word place read fun _ => (word_of_ident read).begins
  · exact .pure _

theorem keeps_type (place : Place text c) (what : String) :
    Keeps text (ident what >>= checkedValueType) c :=
  (keeps_ident place what).bind place fun _ _ read _ => keeps_checkedValueType place read

section

variable {item : Scan α} {Item : Cursor → α → Cursor → Prop}

/-- A part that a sign announces, and what is read behind it or without it. -/
theorem keeps_announced {sign : Char} {next : Option α → Scan β} (place : Place text c)
    (keeps : ∀ c, Place text c → Keeps text item c)
    (second : ∀ part c, Place text c → Keeps text (next part) c) :
    Keeps text (eat sign >>= fun b =>
      if b = true then some <$> item >>= next else pure none >>= next) c := by
  refine (keeps_eat sign c).bind place fun b m _ there => ?_
  split
  · exact ((keeps m there).map there some).bind there fun part n _ => second part n
  · exact second none m there

/-- As many steps as characters are left are enough for the items that are written there. -/
theorem keeps_itemsUpTo (close : Char) (keeps : ∀ c, Place text c → Keeps text item c)
    (reaches : ∀ c a d, Reaches item c a d ↔ Item c.skip a d)
    (shorter : ∀ c a d, Item c a d → d.rest.length < c.rest.length) (n : Nat)
    (place : Place text c) (enough : c.skip.rest.length < n) :
    Keeps text (itemsUpTo close item n) c := by
  induction n generalizing c with
  | zero => exact absurd enough (Nat.not_lt_zero _)
  | succ n ih =>
      unfold itemsUpTo
      refine (keeps c place).bind place fun a m read there => ?_
      refine (keeps_eat ',' m).bind there fun b o eaten further => ?_
      -- What is left is counted behind trivia, which a comma leaves to the item that follows it.
      have first := shorter _ _ _ ((reaches c a m.skip).1 ⟨m, read, rfl⟩)
      have rest := eat_shrinks eaten
      split
      · exact (ih further (by omega)).bind_pure further _
      · exact (keeps_expect further close).bind_pure further _

theorem keeps_list (close : Char) (keeps : ∀ c, Place text c → Keeps text item c)
    (reaches : ∀ c a d, Reaches item c a d ↔ Item c.skip a d)
    (shorter : ∀ c a d, Item c a d → d.rest.length < c.rest.length) (c : Cursor)
    (place : Place text c) : Keeps text (list close item) c := by
  refine .of_eq (list_eq close item c) (.refl c) ?_
  refine (keeps_eat close c).bind place fun b m eaten there => ?_
  split
  · exact .pure _
  · have rest := eat_shrinks eaten
    exact keeps_itemsUpTo close keeps reaches shorter _ there (by omega)

end

theorem keeps_idents (close : Char) (what : String) (c : Cursor) (place : Place text c) :
    Keeps text (list close (ident what)) c :=
  keeps_list close (fun _ there => keeps_ident there what) (fun _ _ _ => reaches_ident)
    (fun _ _ _ word => word.shorter) c place

theorem keeps_param (lines : LineIndex) (c : Cursor) (place : Place text c) :
    Keeps text (param lines) c := by
  refine (keeps_ident place _).bind place fun name m read there => ?_
  refine keeps_announced there (fun _ further => keeps_type further _) fun type n further => ?_
  refine keeps_announced further (fun _ => keeps_sample) fun sample o _ => ?_
  dsimp only
  split
  · exact .failAt_word place read fun _ => (word_of_ident read).begins
  · exact .pure _

theorem keeps_field (lines : LineIndex) (c : Cursor) (place : Place text c) :
    Keeps text (field lines) c := by
  refine (keeps_ident place _).bind place fun name m _ there => ?_
  refine (keeps_expect there ':').bind there fun _ n _ further => ?_
  exact (keeps_ident further _).bind_pure further _

theorem keeps_fields (lines : LineIndex) (c : Cursor) (place : Place text c) :
    Keeps text (list ')' (field lines)) c :=
  keeps_list ')' (keeps_field lines) (reaches_field lines) (fun _ _ _ field => field.shorter) c
    place

theorem keeps_row (lines : LineIndex) (keyword : Ident) (place : Place text c) :
    Keeps text (row lines keyword) c := by
  refine (keeps_ident place _).bind place fun name m read there => ?_
  refine keeps_announced there (keeps_fields lines) fun fields n _ => ?_
  dsimp only
  split
  · exact .failAt_word place read fun _ => (word_of_ident read).begins
  · exact .pure _

/-- A block that is not closed is reported at its brace or at the region that is left open. -/
theorem blockEnd_real {offset : Nat} {more : Text} {e : Query.QueryError}
    (place : Place text ⟨offset, '\x7b' :: more⟩)
    (open_ : Query.blockEnd offset ('\x7b' :: more) = .error e) :
    Fault.Real text ⟨e.offset, .block e⟩ := by
  rw [Query.blockEnd_brace] at open_
  rcases Query.blockEndFrom_eq_error open_ with rfl | ⟨construct, inside, rest, rfl, region, rfl⟩
  · exact place.real fun _ length => ⟨length.symm, rfl⟩
  · have ahead : Before ⟨offset, '\x7b' :: (inside ++ rest)⟩
        ⟨offset + 1 + Text.byteLength inside, rest⟩ :=
      ⟨'\x7b' :: inside, rfl, Nat.add_assoc offset 1 _⟩
    exact (place.go ahead).real fun _ length => ⟨length.symm, region⟩

theorem keeps_sqlBlock (place : Place text c) : Keeps text sqlBlock c := by
  refine ⟨fun read => ?_, fun fails => ?_⟩
  · obtain ⟨_, stretch, _⟩ := sqlBlock_eq_ok.1 read
    exact c.before_skip.trans ⟨_, stretch⟩
  have there := place.skip
  by_cases ahead : c.skip.rest.head? = some '\x7b'
  · obtain ⟨offset, more, brace⟩ := Cursor.exists_cons ahead
    rw [brace] at there
    cases ends : Query.blockEnd offset ('\x7b' :: more) with
    | error e =>
        rw [sqlBlock_of_error brace ends] at fails
        cases fails
        exact blockEnd_real there ends
    | ok close =>
        obtain ⟨inside, after, rfl, isInside, rfl⟩ := Query.blockEnd_eq_ok.1 ends
        rw [sqlBlock_of_inside brace isInside] at fails
        split at fails
        · cases fails
          exact there.real fun _ _ => rfl
        · cases fails
  · rw [sqlBlock_of_unbraced ahead] at fails
    exact (keeps_unexpected there _).real fails

theorem keeps_target (convention : Convention) (place : Place text c) :
    Keeps text (target convention) c := by
  unfold target
  split
  · exact (keeps_ident place _).bind_pure place _
  · split
    · refine (keeps_ident place _).bind place fun type m read there => ?_
      split
      · exact .pure _
      · exact (keeps_checkedValueType place read).bind_pure there _
    · exact .pure _

theorem keeps_statement (lines : LineIndex) (place : Place text c) :
    Keeps text (statement lines) c := by
  refine (keeps_ident place _).bind place fun keyword m read there => ?_
  dsimp only
  split
  · exact .failAt_word place read fun _ => (word_of_ident read).begins
  · refine (keeps_ident there _).bind there fun object n _ further => ?_
    refine (keeps_expect further '(').bind further fun _ o _ inside => ?_
    exact (keeps_idents ')' _ o inside).bind_pure inside _
  · exact (keeps_ident there _).bind_pure there _
  · refine (keeps_target _ there).bind there fun target n _ further => ?_
    refine keeps_announced further (keeps_idents ']' _) fun args o inside => ?_
    exact (keeps_sqlBlock inside).bind_pure inside _

/-- As many steps as characters are left are enough for the statements that are written there. -/
theorem keeps_statementsUpTo (lines : LineIndex) (n : Nat) (place : Place text c)
    (enough : c.skip.rest.length < n) : Keeps text (statementsUpTo lines n) c := by
  induction n generalizing c with
  | zero => exact absurd enough (Nat.not_lt_zero _)
  | succ n ih =>
      unfold statementsUpTo
      refine (keeps_eat '\x7d' c).bind place fun b m eaten there => ?_
      split
      · exact .pure _
      · refine (keeps_peek m).bind there fun next o peeked further => ?_
        cases peeked
        split
        · exact keeps_unexpected further _
        · refine (keeps_statement lines further).bind further fun first p read behind => ?_
          have shorter := ((reaches_statement lines _ first _).1 ⟨p, read, rfl⟩).shorter
          have rest := eat_shrinks eaten
          rw [m.skip_skip] at shorter
          exact (ih behind (by omega)).bind_pure behind _

theorem mem_of_firstRepeated? {κ : Type} [BEq κ] {key : α → κ} {seen : List κ} {as : List α}
    {a : α} (repeated : firstRepeated? key seen as = some a) : a ∈ as := by
  induction as generalizing seen with
  | nil => cases repeated
  | cons first rest ih =>
      simp only [firstRepeated?] at repeated
      split at repeated
      · cases repeated
        exact .head _
      · exact .tail _ (ih repeated)

theorem keeps_method (lines : LineIndex) (keyword : Ident) (place : Place text c) :
    Keeps text (method lines keyword) c := by
  refine (keeps_ident place _).bind place fun name m _ there => ?_
  refine (keeps_expect there '(').bind there fun _ n _ further => ?_
  refine (keeps_list ')' (keeps_param lines) (reaches_param lines)
    (fun _ _ _ param => param.shorter) n further).bind further fun params o read inside => ?_
  split
  · rename_i again repeated
    have listed := (reaches_params lines n params o.skip).1 ⟨o, read, rfl⟩
    obtain ⟨p, q, ahead, ⟨⟨_, _, word, _⟩, _⟩, _⟩ :=
      listed.each (fun _ _ _ param => param.before) again (mem_of_firstRepeated? repeated)
    exact .failAt (word.real (further.skip.go ahead) fun _ => word.begins)
  · refine (keeps_expect inside '\x7b').bind inside fun _ p _ body => ?_
    refine .get ?_
    have enough := Nat.lt_succ_of_le p.skip_length
    exact (keeps_statementsUpTo lines _ body enough).bind_pure body _

theorem keeps_item (lines : LineIndex) (draft : Draft) (place : Place text c) :
    Keeps text (item lines draft) c := by
  refine (keeps_ident place _).bind place fun keyword m read there => ?_
  have begins := (word_of_ident read).begins
  split
  · rename_i name
    split
    · rw [name] at begins
      exact .failAt_word place read fun _ => begins
    · exact (keeps_ident there _).bind_pure there _
  · refine (keeps_row lines keyword there).bind there fun row n read _ => ?_
    split
    · obtain ⟨⟨_, word, _⟩, _⟩ := (reaches_row lines keyword m row n.skip).1 ⟨n, read, rfl⟩
      exact .failAt (word.real there.skip fun _ => word.begins)
    · exact .pure _
  · refine (keeps_method lines keyword there).bind there fun method n read _ => ?_
    split
    · obtain ⟨⟨_, _, _, _, word, _⟩, _⟩ :=
        (reaches_method lines keyword m method n.skip).1 ⟨n, read, rfl⟩
      exact .failAt (word.real there.skip fun _ => word.begins)
    · exact .pure _
  · exact .failAt_word place read fun _ => begins

/-- As many steps as characters are left are enough for the declarations of a unit. -/
theorem keeps_itemsFrom (lines : LineIndex) (draft : Draft) (n : Nat) (place : Place text c)
    (enough : c.skip.rest.length < n) : Keeps text (itemsFrom lines draft n) c := by
  induction n generalizing c draft with
  | zero => exact absurd enough (Nat.not_lt_zero _)
  | succ n ih =>
      unfold itemsFrom
      refine (keeps_peek c).bind place fun next m peeked there => ?_
      cases peeked
      split
      · exact .pure _
      · refine (keeps_item lines draft there).bind there fun next o read further => ?_
        have shorter := ((reaches_item lines draft _ next _).1 ⟨o, read, rfl⟩).shorter
        rw [c.skip_skip] at shorter
        exact ih next further (by omega)

/-- A row that is not declared stands in the text of the unit that uses it. -/
theorem Placed.undeclared {o : Cursor} {draft : Draft} {name : Ident}
    (placed : Placed lines o draft) (undeclared : undeclaredRow? draft = some name) :
    ∃ c d, Before o c ∧ Word c name d := by
  obtain ⟨s, member, target⟩ := List.exists_of_findSome?_eq_some undeclared
  obtain ⟨method, inside, among⟩ := List.mem_flatMap.1 member
  obtain ⟨c, d, ahead, at_⟩ := (placed.methods method inside).statements s among
  cases at_ with
  | proc | nextval => cases target
  | sql keyword _ _ _ target_ _ _ =>
      cases target_ with
      | discovered | value | none => cases target
      | row _ word =>
          dsimp only at target
          split at target
          · cases target
          · cases target
            exact ⟨_, _, ahead.trans keyword.before, word⟩

theorem keeps_unit (lines : LineIndex) (place : Place text c) : Keeps text (unit lines) c := by
  refine .get ?_
  have enough := Nat.lt_succ_of_le c.skip_length
  refine (keeps_itemsFrom lines _ _ place enough).bind place fun draft m read _ => ?_
  split
  · exact .failAt ((Place.start text).real fun before length => Text.eq_nil_of_byteLength length)
  · split
    · rename_i name _ row undeclared
      have items := (reaches_itemsFrom lines _ _ c draft m.skip enough).1 ⟨m, read, rfl⟩
      have placed := items.placed (place_iff.1 place.skip) ⟨nofun, nofun⟩
      obtain ⟨d, e, there, word⟩ := placed.undeclared undeclared
      exact .failAt (word.real (place_iff.2 there) fun _ => word.begins)
    · exact .pure _

/-- Every reader of a unit keeps to the text, wherever in it there is something for it to read. What
lies between two places is a slice of the text. -/
structure KeepsTo (text : Text) (lines : LineIndex) : Prop where
  slice : ∀ c t d, Place text c → Stretch c t d → Place text d ∧
    Text.slice? text ⟨c.offset, d.offset⟩ = some t
  expect : ∀ c sign, Place text c → Keeps text (expect sign) c
  ident : ∀ c what, Place text c → Keeps text (ident what) c
  quoted : ∀ c, Place text c → Keeps text quoted c
  number : ∀ c x, Place text c → c.rest.head? = some x → isNumberStart x = true →
    Keeps text number c
  sample : ∀ c, Place text c → Keeps text sample c
  param : ∀ c, Place text c → Keeps text (param lines) c
  row : ∀ c keyword, Place text c → Keeps text (row lines keyword) c
  sqlBlock : ∀ c, Place text c → Keeps text sqlBlock c
  statement : ∀ c, Place text c → Keeps text (statement lines) c
  method : ∀ c keyword, Place text c → Keeps text (method lines keyword) c
  item : ∀ c draft, Place text c → Keeps text (item lines draft) c
  unit : ∀ c, Place text c → Keeps text (unit lines) c

theorem keepsTo (text : Text) (lines : LineIndex) : KeepsTo text lines where
  slice _ _ _ place stretch := ⟨place.go ⟨_, stretch⟩, place.slice stretch⟩
  expect _ sign place := keeps_expect place sign
  ident _ what place := keeps_ident place what
  quoted _ place := keeps_quoted place
  number _ _ place ahead starts := keeps_number place ahead starts
  sample _ place := keeps_sample place
  param := keeps_param lines
  row _ keyword place := keeps_row lines keyword place
  sqlBlock _ place := keeps_sqlBlock place
  statement _ place := keeps_statement lines place
  method _ keyword place := keeps_method lines keyword place
  item _ draft place := keeps_item lines draft place
  unit _ place := keeps_unit lines place

end Scanner

namespace SourceUnit

open Scanner

theorem scan_of_ok {path source : String} {pair : (Ident × Draft) × Scanner.Cursor}
    (read : unit (LineIndex.ofText source.toList) ⟨0, source.toList⟩ = .ok pair) :
    ∃ unit, scan path source = .ok unit := by
  unfold scan
  dsimp only
  rw [read]
  exact ⟨_, rfl⟩

theorem scan_of_error {path source : String} {f : Fault}
    (read : unit (LineIndex.ofText source.toList) ⟨0, source.toList⟩ = .error f) :
    scan path source = .error ⟨(LineIndex.ofText source.toList).line f.offset,
      (LineIndex.ofText source.toList).column f.offset, f.problem⟩ := by
  unfold scan
  dsimp only
  rw [read]

/-- A text is a unit, or a fault in it is shown by its line and column. -/
theorem scan_total (path source : String) :
    let text := source.toList
    let lines := LineIndex.ofText text
    KeepsTo text lines ∧
    ((∃ unit, scan path source = .ok unit) ∨
      ∃ f : Fault, f.Real text ∧ f.offset ≤ Text.byteLength text ∧
        scan path source = .error ⟨lines.line f.offset, lines.column f.offset, f.problem⟩) ∧
    ∀ o, ∃ lead inLine rest, LineCut text o lead inLine rest ∧
      lines.line o = 1 + Text.newlines (lead ++ inLine) ∧
      lines.column o = o - Text.byteLength lead + 1 := by
  intro text lines
  refine ⟨keepsTo text lines, ?_, fun o => ?_⟩
  · have keeps := keeps_unit lines (Place.start text)
    cases read : unit lines ⟨0, text⟩ with
    | ok pair => exact .inl (scan_of_ok read)
    | error f =>
        have real := keeps.real read
        exact .inr ⟨f, real, real.le, scan_of_error read⟩
  · obtain ⟨lead, inLine, rest, cut⟩ := LineCut.exists_cut text o
    exact ⟨lead, inLine, rest, cut, cut.line, cut.column⟩

/-- Columns count bytes, and a blank may have two. -/
example :
    (match scan "u" "// é\nunit\u00a0?" with
      | .error e => some (e.line, e.column)
      | .ok _ => none) = some (2, 7) := by decide +kernel

end SourceUnit

end SqlUnits
