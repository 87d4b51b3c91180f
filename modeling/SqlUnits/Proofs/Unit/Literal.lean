import SqlUnits.Proofs.Unit.Reading
/-!
Sample values as texts. Quoted texts are written with every quote doubled; a number is the longest
run of its characters.
-/

namespace SqlUnits.Scanner

variable {c d e : Cursor}

/-- A text with its quotes doubled. -/
def doubled : Text → Text
  | [] => []
  | '\'' :: rest => '\'' :: '\'' :: doubled rest
  | c :: rest => c :: doubled rest

theorem quotedBody?_doubled {after : Text} (stops : after.head? ≠ some '\'') (inside : Text) :
    quotedBody? (doubled inside ++ '\'' :: after) = some (inside, after) := by
  fun_induction doubled inside with
  | case1 =>
      cases after with
      | nil => rfl
      | cons x after =>
          have other : x ≠ '\'' := fun same => stops (congrArg some same)
          simp [quotedBody?, other]
  | case2 rest ih => simp [quotedBody?, ih]
  | case3 x rest other ih =>
      have plain : x ≠ '\'' := other
      simp [quotedBody?, plain, ih]

theorem doubled_of_quotedBody? {cs inside after : Text}
    (closed : quotedBody? cs = some (inside, after)) :
    cs = doubled inside ++ '\'' :: after ∧ after.head? ≠ some '\'' := by
  fun_induction quotedBody? cs generalizing inside after with
  | case1 => simp at closed
  | case2 rest ih =>
      obtain ⟨⟨within, more⟩, found, same⟩ := Option.map_eq_some_iff.1 closed
      cases same
      obtain ⟨rfl, stops⟩ := ih found
      exact ⟨rfl, stops⟩
  | case3 rest single =>
      cases closed
      refine ⟨rfl, fun next => ?_⟩
      obtain ⟨more, rfl⟩ := List.head?_eq_some_iff.1 next
      exact single more rfl
  | case4 x rest _ other ih =>
      obtain ⟨⟨within, more⟩, found, same⟩ := Option.map_eq_some_iff.1 closed
      cases same
      obtain ⟨rfl, stops⟩ := ih found
      exact ⟨by simp [doubled], stops⟩

/-- The class of the quote alone. -/
def isQuote (x : Char) : Bool :=
  x == '\''

theorem any_isQuote {next : Option Char} : next.any isQuote = false ↔ next ≠ some '\'' := by
  cases next <;> simp [isQuote]

def quotedForm (s : String) : Text :=
  '\'' :: (doubled s.toList ++ ['\''])

/-- A text in quotes. -/
def Quote (c : Cursor) (s : String) (d : Cursor) : Prop :=
  ∃ t, Stretch c t d ∧ Token isQuote (quotedForm s) t d.rest

theorem expect_eq_ok {sign : Char} {u : Unit} :
    expect sign c = .ok (u, e) ↔ Stretch c.skip [sign] e := by
  unfold expect
  rw [bind_eq_ok, eat_eq]
  constructor
  · rintro ⟨there, m, eaten, rest⟩
    split at eaten
    · rename_i ahead
      obtain ⟨more, whole⟩ := List.head?_eq_some_iff.1 ahead
      cases eaten
      cases rest
      rw [whole]
      exact ⟨whole, rfl⟩
    · cases eaten
      cases rest
  · intro stretch
    rw [if_pos (by rw [stretch.rest]; rfl)]
    refine ⟨true, _, rfl, ?_⟩
    obtain ⟨offset, rest⟩ := e
    have there : offset = c.skip.offset + sign.utf8Size := stretch.offset
    rw [stretch.rest, there]
    rfl

/-- Reads the content of a quoted text and its closing quote. -/
def closing (c : Cursor) : Except Fault (String × Cursor) :=
  match quotedBody? c.rest with
  | none => .error ⟨c.offset - 1, .unterminatedString⟩
  | some (inside, after) =>
      .ok (String.ofList inside,
        ⟨c.offset + (Text.byteLength c.rest - Text.byteLength after), after⟩)

theorem quoted_eq : quoted = (expect '\'' >>= fun _ => closing) := by
  unfold quoted
  refine congrArg (expect '\'' >>= ·) (funext fun _ => funext fun m => ?_)
  rw [bind_get]
  unfold closing
  cases quotedBody? m.rest <;> rfl

theorem quoted_eq_ok {s : String} :
    quoted c = .ok (s, e) ↔
      Stretch c.skip (quotedForm s) e ∧ e.rest.head?.any isQuote = false := by
  rw [quoted_eq, bind_eq_ok, any_isQuote]
  constructor
  · rintro ⟨_, m, opened, closed⟩
    have first := expect_eq_ok.1 opened
    unfold closing at closed
    cases found : quotedBody? m.rest with
    | none => simp [found] at closed
    | some pair =>
        obtain ⟨inside, after⟩ := pair
        simp only [found, Except.ok.injEq, Prod.mk.injEq] at closed
        obtain ⟨rfl, rfl⟩ := closed
        obtain ⟨whole, stops⟩ := doubled_of_quotedBody? found
        refine ⟨?_, stops⟩
        have second : Stretch m (doubled inside ++ ['\''])
            ⟨m.offset + (Text.byteLength m.rest - Text.byteLength after), after⟩ := by
          refine ⟨by rw [whole]; simp, ?_⟩
          simp only [whole, Text.byteLength_append, Text.byteLength_cons, Text.byteLength_nil]
          omega
        have both := first.trans second
        rwa [quotedForm, String.toList_ofList]
  · rintro ⟨stretch, stops⟩
    obtain ⟨first, second⟩ :=
      Stretch.split (t := ['\'']) (u := doubled s.toList ++ ['\'']) stretch
    refine ⟨⟨⟩, _, expect_eq_ok.2 first, ?_⟩
    have found := quotedBody?_doubled stops s.toList
    simp only [closing, List.append_assoc, List.singleton_append, found, String.ofList_toList]
    obtain ⟨offset, after⟩ := e
    have there := second.offset
    simp only [Text.byteLength_append, Text.byteLength_cons, Text.byteLength_nil] at there ⊢
    congr 3
    omega

theorem reaches_quoted {s : String} : Reaches quoted c s d ↔ Quote c.skip s d := by
  constructor
  · rintro ⟨e, read, rfl⟩
    obtain ⟨stretch, stops⟩ := quoted_eq_ok.1 read
    obtain ⟨gap, trivia, gaps⟩ := e.skip_gap
    refine ⟨_, stretch.trans trivia, gap, rfl, gaps, ?_⟩
    rwa [← trivia.rest]
  · rintro ⟨t, stretch, gap, rfl, gaps, stops⟩
    obtain ⟨first, second⟩ := stretch.split
    exact ⟨_, quoted_eq_ok.2 ⟨first, stops⟩, gaps.skip_eq second⟩

theorem numberRun_before {rest rest' : Text} (head : rest'.head? = rest.head?) :
    ∀ (tail : Text) (x : Char),
      numberRun x (tail ++ rest) = tail → numberRun x (tail ++ rest') = tail
  | [], x, run => by
      cases rest with
      | nil =>
          rw [List.head?_eq_none_iff.1 head]
          rfl
      | cons y rest =>
          obtain ⟨more, rfl⟩ := List.head?_eq_some_iff.1 head
          simp only [List.nil_append, numberRun] at run ⊢
          split at run <;> [cases run; split at run <;> [cases run; simp_all]]
  | y :: tail, x, run => by
      simp only [List.cons_append, numberRun] at run ⊢
      split at run
      · rename_i goesOn
        rw [if_pos goesOn, numberRun_before head tail y (List.cons.inj run).2]
      · rename_i ends
        rw [if_neg ends]
        split at run
        · rename_i long
          rw [if_pos long]
          exact run
        · cases run

theorem utf8Size_of_isDigit {x : Char} (digit : Text.isDigit x = true) : x.utf8Size = 1 := by
  simp only [Text.isDigit, Bool.and_eq_true, decide_eq_true_eq, Char.le_def] at digit
  rw [Char.utf8Size_eq_one_iff]
  exact UInt32.le_trans digit.2 (by decide)

theorem numberRun_cut (x : Char) (cs : Text) :
    numberRun x cs <+: cs ∧ Text.byteLength (numberRun x cs) = (numberRun x cs).length := by
  fun_induction numberRun x cs with
  | case1 => exact ⟨List.prefix_rfl, rfl⟩
  | case2 x y rest _ goesOn ih =>
      obtain ⟨initial, length⟩ := ih
      refine ⟨List.cons_prefix_cons.2 ⟨rfl, initial⟩, ?_⟩
      have size : y.utf8Size = 1 := by
        simp only [Bool.or_eq_true, beq_iff_eq] at goesOn
        rcases goesOn with (((digit | rfl) | rfl) | rfl) | sign
        · exact utf8Size_of_isDigit digit
        · rfl
        · rfl
        · rfl
        · obtain ⟨mark, _⟩ := Bool.and_eq_true_iff.1 sign
          rcases Bool.or_eq_true_iff.1 mark with plus | minus
          · rw [eq_of_beq plus]
            rfl
          · rw [eq_of_beq minus]
            rfl
      rw [Text.byteLength_cons, size, length, List.length_cons, Nat.add_comm]
  | case3 x y rest _ ends long =>
      refine ⟨List.cons_prefix_cons.2 ⟨rfl, List.nil_prefix⟩, ?_⟩
      rw [eq_of_beq long]
      rfl
  | case4 => exact ⟨List.nil_prefix, rfl⟩

/-- The characters that begin a number. -/
def isNumberStart (x : Char) : Bool :=
  x == '-' || Text.isDigit x

theorem utf8Size_of_isNumberStart {x : Char} (starts : isNumberStart x = true) :
    x.utf8Size = 1 := by
  rcases Bool.or_eq_true_iff.1 starts with minus | digit
  · rw [eq_of_beq minus]
    rfl
  · exact utf8Size_of_isDigit digit

theorem number_eq (offset : Nat) (x : Char) (rest : Text) :
    number ⟨offset, x :: rest⟩ =
      (Sample.parseNumber? (x :: numberRun x rest)).elim
        (.error ⟨offset, .invalidNumber (String.ofList (x :: numberRun x rest))⟩) fun sample =>
          .ok (sample, ⟨offset + (numberRun x rest).length + 1,
            rest.drop (numberRun x rest).length⟩) := by
  unfold number
  rw [bind_get]
  dsimp only
  rw [bind_set]
  cases Sample.parseNumber? (x :: numberRun x rest) <;> rfl

theorem number_eq_ok {x : Char} (ahead : c.rest.head? = some x)
    (starts : isNumberStart x = true) {s : Sample} :
    number c = .ok (s, e) ↔
      ∃ tail, Stretch c (x :: tail) e ∧ numberRun x (tail ++ e.rest) = tail ∧
        Sample.parseNumber? (x :: tail) = some s := by
  obtain ⟨offset, rest, rfl⟩ := Cursor.exists_cons ahead
  rw [number_eq]
  have size := utf8Size_of_isNumberStart starts
  constructor
  · intro parsed
    obtain ⟨⟨after, cut⟩, length⟩ := numberRun_cut x rest
    generalize ran : numberRun x rest = run at parsed cut length
    subst cut
    cases value : Sample.parseNumber? (x :: run) with
    | none => simp [value] at parsed
    | some sample =>
        simp only [value, Option.elim_some, List.drop_left, Except.ok.injEq,
          Prod.mk.injEq] at parsed
        obtain ⟨rfl, rfl⟩ := parsed
        refine ⟨run, ⟨rfl, ?_⟩, ran, value⟩
        simp only [Text.byteLength_cons, size, length]
        omega
  · rintro ⟨tail, stretch, ran, value⟩
    obtain ⟨_, length⟩ := numberRun_cut x (tail ++ e.rest)
    have same : rest = tail ++ e.rest := (List.cons.inj stretch.rest).2
    rw [same, ran, value, List.drop_left]
    rw [ran] at length
    obtain ⟨after, _⟩ := e
    have there := stretch.offset
    simp only [Text.byteLength_cons, size, length] at there
    simp only [there, Option.elim_some, Except.ok.injEq, Prod.mk.injEq, Cursor.mk.injEq, and_true,
      true_and]
    omega

/-- The samples that are single words. -/
def plainSample? (word : String) : Option Sample :=
  match word with
  | "true" => some (.bool true)
  | "false" => some (.bool false)
  | "null" => some .null
  | _ => none

inductive SampleAt (c : Cursor) : Sample → Cursor → Prop
  | text {s : String} {d : Cursor} : Quote c s d → SampleAt c (.text s) d
  | number {x : Char} {tail gap : Text} {s : Sample} {d : Cursor} :
      Stretch c (x :: tail ++ gap) d → Gap gap d.rest → isNumberStart x = true →
      numberRun x (tail ++ (gap ++ d.rest)) = tail → Sample.parseNumber? (x :: tail) = some s →
      SampleAt c s d
  | word {w : Ident} {s : Sample} {d : Cursor} :
      Word c w d → plainSample? w.name = some s → SampleAt c s d
  | date {w : Ident} {s : String} {m d : Cursor} :
      Word c w m → w.name = "date" → Quote m s d → SampleAt c (.date s) d
  | timestamp {w : Ident} {s : String} {m d : Cursor} :
      Word c w m → w.name = "timestamp" → Quote m s d → SampleAt c (.timestamp s) d
  | hex {x : Char} {s : String} {bytes : List UInt8} {m d : Cursor} :
      x = 'x' ∨ x = 'X' → Stretch c [x] m → Quote m s d → Hex.toBytes? s.toList = some bytes →
      SampleAt c (.bytes bytes) d

theorem Quote.ends {s : String} (quote : Quote c s d) : d.skip = d := by
  obtain ⟨t, _, token⟩ := quote
  exact Cursor.skip_of_settled token.settled

theorem Quote.shorter {s : String} (quote : Quote c s d) : d.rest.length < c.rest.length := by
  obtain ⟨t, stretch, gap, rfl, _⟩ := quote
  have whole := stretch.length
  simp only [quotedForm, List.cons_append, List.length_cons] at whole
  omega

theorem SampleAt.shorter {s : Sample} (reads : SampleAt c s d) :
    d.rest.length < c.rest.length := by
  cases reads with
  | text quote => exact quote.shorter
  | number stretch _ _ _ _ =>
      have whole := stretch.length
      simp only [List.cons_append, List.length_cons] at whole
      omega
  | word word _ => exact word.shorter
  | date word _ quote | timestamp word _ quote => exact quote.shorter.trans word.shorter
  | hex _ stretch quote _ =>
      have whole := stretch.length
      exact quote.shorter.trans_le (by omega)

theorem SampleAt.ends {s : Sample} (reads : SampleAt c s d) : d.skip = d := by
  cases reads with
  | text quote | date _ _ quote | timestamp _ _ quote | hex _ _ quote _ => exact quote.ends
  | number _ gaps _ _ _ => exact Cursor.skip_of_settled gaps.settled
  | word word _ => exact word.ends

/-- What a sample that begins as an identifier is read by. -/
theorem sample_eq (c : Cursor) :
    sample c =
      match c.skip.rest.head? with
      | some x =>
          if x = '\'' then (quoted >>= fun s => pure (.text s)) c.skip
          else if isNumberStart x = true then number c.skip
          else (ident "a sample value" >>= wordSample) c.skip
      | none => unexpected "a sample value" c.skip := by
  unfold sample
  rw [bind_of_ok (peek_eq c)]
  cases c.skip.rest.head? with
  | none => rfl
  | some x =>
      by_cases quote : x = '\''
      · subst quote
        rfl
      · simp only [if_neg quote]
        unfold isNumberStart
        split <;> rfl

theorem reaches_wordSample {w : Ident} {s : Sample} :
    Reaches (wordSample w) c s d ↔
      (plainSample? w.name = some s ∧ d = c.skip) ∨
      (w.name = "date" ∧ ∃ t, Quote c.skip t d ∧ s = .date t) ∨
      (w.name = "timestamp" ∧ ∃ t, Quote c.skip t d ∧ s = .timestamp t) ∨
      ((w.name = "x" ∨ w.name = "X") ∧ c.rest.head? = some '\'' ∧
        ∃ t bytes, Quote c.skip t d ∧ Hex.toBytes? t.toList = some bytes ∧ s = .bytes bytes) := by
  unfold wordSample
  rw [reaches_get]
  dsimp only
  split
  · rename_i name
    simp [name, plainSample?, reaches_pure, eq_comm]
  · rename_i name
    simp [name, plainSample?, reaches_pure, eq_comm]
  · rename_i name
    simp [name, plainSample?, reaches_pure, eq_comm]
  · rename_i name
    simp [name, plainSample?, reaches_map, reaches_quoted]
  · rename_i name
    simp [name, plainSample?, reaches_map, reaches_quoted]
  · rename_i other noTrue noFalse noNull noDate noTimestamp
    have noPlain : plainSample? w.name = none := by
      unfold plainSample?
      split <;> first | contradiction | rfl
    rw [reaches_ite, reaches_bind fun body => by split; exacts [.pure _, .failAt _ _]]
    simp only [noPlain, Bool.and_eq_true, Bool.or_eq_true, beq_iff_eq, decide_eq_true_eq]
    constructor
    · rintro (⟨⟨name, ahead⟩, body, m, opened, closed⟩ | ⟨_, fails⟩)
      · split at closed
        · rename_i bytes read
          obtain ⟨rfl, rfl⟩ := reaches_pure.1 closed
          rw [opened.skip]
          exact .inr (.inr (.inr ⟨name, ahead, body, bytes, reaches_quoted.1 opened, read, rfl⟩))
        · exact absurd closed not_reaches_failAt
      · exact absurd fails not_reaches_failAt
    · rintro (⟨none, _⟩ | ⟨date, _⟩ | ⟨timestamp, _⟩ |
        ⟨name, ahead, body, bytes, opened, read, rfl⟩)
      · cases none
      · exact absurd date noDate
      · exact absurd timestamp noTimestamp
      · have opened := reaches_quoted.2 opened
        refine .inl ⟨⟨name, ahead⟩, body, d, opened, ?_⟩
        rw [read]
        exact reaches_pure.2 ⟨rfl, opened.skip.symm⟩

/-- A character of an identifier that is no digit begins neither a quoted text nor a number. -/
theorem sample_eq_word {x : Char} (ahead : c.skip.rest.head? = some x)
    (letter : Text.isIdentChar x = true) (noDigit : Text.isDigit x = false) :
    sample c = (ident "a sample value" >>= wordSample) c.skip := by
  have noQuote : x ≠ '\'' := by
    rintro rfl
    exact absurd letter (by decide)
  have noNumber : isNumberStart x = false := by
    refine Bool.or_eq_false_iff.2 ⟨beq_eq_false_iff_ne.2 ?_, noDigit⟩
    rintro rfl
    exact absurd letter (by decide)
  rw [sample_eq, ahead]
  simp [noQuote, noNumber]

/-- A word that is read at a cursor, and what its kind of sample makes of the text behind it. -/
theorem reaches_sample_word {w : Ident} {m : Cursor} {s : Sample}
    (read : ident "a sample value" c.skip = .ok (w, m)) (rest : Reaches (wordSample w) m s d) :
    Reaches sample c s d := by
  have word : Word c.skip.skip w m.skip := reaches_ident.1 ⟨m, read, rfl⟩
  rw [c.skip_skip] at word
  obtain ⟨x, ahead, letter, noDigit⟩ := word.head
  obtain ⟨e, rest, there⟩ := rest
  refine ⟨e, ?_, there⟩
  rw [sample_eq_word ahead letter noDigit]
  exact bind_eq_ok.2 ⟨w, m, read, rest⟩

theorem Quote.head {s : String} (quote : Quote c s d) : c.rest.head? = some '\'' := by
  obtain ⟨t, stretch, gap, rfl, _⟩ := quote
  rw [stretch.rest]
  rfl

theorem Quote.skip {s : String} (quote : Quote c s d) : c.skip = c := by
  obtain ⟨rest, whole⟩ := List.head?_eq_some_iff.1 quote.head
  refine Cursor.skip_of_settled ?_
  rw [whole]
  exact ⟨by decide, by simp⟩

theorem reaches_sample {s : Sample} : Reaches sample c s d ↔ SampleAt c.skip s d := by
  constructor
  · rintro ⟨e, read, rfl⟩
    rw [sample_eq] at read
    cases ahead : c.skip.rest.head? with
    | none =>
        rw [ahead] at read
        cases read
    | some x =>
        simp only [ahead] at read
        split at read
        · obtain ⟨t, opened, rfl⟩ := reaches_bind_pure.1 ⟨e, read, rfl⟩
          have quote := reaches_quoted.1 opened
          rw [c.skip_skip] at quote
          exact .text quote
        · split at read
          · rename_i starts
            obtain ⟨tail, stretch, run, value⟩ := (number_eq_ok ahead starts).1 read
            obtain ⟨gap, trivia, gaps⟩ := e.skip_gap
            exact .number (stretch.trans trivia) gaps starts (by rwa [← trivia.rest]) value
          · obtain ⟨w, m, word, rest⟩ := bind_eq_ok.1 read
            have at_ : Word c.skip.skip w m.skip := reaches_ident.1 ⟨m, word, rfl⟩
            obtain ⟨_, stretch, _, _⟩ := ident_eq_ok.1 word
            rw [c.skip_skip] at at_ stretch
            rcases reaches_wordSample.1 ⟨e, rest, rfl⟩ with
              ⟨plain, same⟩ | ⟨name, t, quote, rfl⟩ | ⟨name, t, quote, rfl⟩ |
              ⟨name, next, t, bytes, quote, hex, rfl⟩
            · rw [same]
              exact .word at_ plain
            · exact .date at_ name quote
            · exact .timestamp at_ name quote
            · have settled : m.skip = m := by
                obtain ⟨rest, whole⟩ := List.head?_eq_some_iff.1 next
                refine Cursor.skip_of_settled ?_
                rw [whole]
                exact ⟨by decide, by simp⟩
              rw [settled] at quote
              rcases name with name | name <;> rw [name] at stretch
              · exact .hex (.inl rfl) stretch quote hex
              · exact .hex (.inr rfl) stretch quote hex
  · intro at_
    cases at_ with
    | text quote =>
        have read := (reaches_bind_pure (f := Sample.text)).2
          ⟨_, reaches_quoted.2 (c.skip_skip.symm ▸ quote), rfl⟩
        obtain ⟨e, read, there⟩ := read
        refine ⟨e, ?_, there⟩
        rw [sample_eq, quote.head]
        exact read
    | number stretch gaps starts run value =>
        obtain ⟨first, second⟩ := stretch.split
        have ahead : c.skip.rest.head? = some _ := congrArg List.head? stretch.rest
        refine ⟨_, ?_, gaps.skip_eq second⟩
        have read := (number_eq_ok ahead starts).2 ⟨_, first, run, value⟩
        rw [sample_eq, ahead]
        simp only [if_pos starts]
        rwa [if_neg]
        rintro rfl
        exact absurd starts (by decide)
    | word word plain =>
        obtain ⟨m, read, rfl⟩ : Reaches (ident "a sample value") c.skip _ _ :=
          reaches_ident.2 (c.skip_skip.symm ▸ word)
        exact reaches_sample_word read (reaches_wordSample.2 (.inl ⟨plain, rfl⟩))
    | date word name quote =>
        obtain ⟨m, read, rfl⟩ : Reaches (ident "a sample value") c.skip _ _ :=
          reaches_ident.2 (c.skip_skip.symm ▸ word)
        exact reaches_sample_word read (reaches_wordSample.2 (.inr (.inl ⟨name, _, quote, rfl⟩)))
    | timestamp word name quote =>
        obtain ⟨m, read, rfl⟩ : Reaches (ident "a sample value") c.skip _ _ :=
          reaches_ident.2 (c.skip_skip.symm ▸ word)
        exact reaches_sample_word read
          (reaches_wordSample.2 (.inr (.inr (.inl ⟨name, _, quote, rfl⟩))))
    | @hex x s bytes m _ letter stretch quote value =>
        let w : Ident := ⟨String.ofList [x], ⟨c.skip.offset, m.offset⟩⟩
        have chars : w.name.toList = [x] := String.toList_ofList
        have read : ident "a sample value" c.skip = .ok (w, m) := by
          rw [ident_eq_ok, c.skip_skip, chars, quote.head]
          refine ⟨⟨by simp, ?_, ?_⟩, stretch, rfl, by decide⟩
          · rcases letter with rfl | rfl <;> simp <;> decide
          · rcases letter with rfl | rfl <;> decide
        have name : w.name = "x" ∨ w.name = "X" := by
          rcases letter with rfl | rfl
          · exact .inl rfl
          · exact .inr rfl
        refine reaches_sample_word read (reaches_wordSample.2 (.inr (.inr (.inr ?_))))
        exact ⟨name, quote.head, s, bytes, quote.skip.symm ▸ quote, value, rfl⟩

end SqlUnits.Scanner
