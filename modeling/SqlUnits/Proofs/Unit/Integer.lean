import SqlUnits.Proofs.Unit.Spelling
/-!
Integers as samples of parameters. An integer of 32 bits is read as one unless it is marked as a
long, every other integer of 64 bits as a long, and a wider one is reported where it begins: no
digits are lost and no value wraps.
-/

namespace SqlUnits

/-- How an integer is written: perhaps with a minus sign, in any number of digits, and perhaps with
the mark of a long. -/
structure IntegerForm where
  negative : Bool
  digits : Text
  long : Bool
  nonempty : digits ≠ []
  all : ∀ c ∈ digits, Text.isDigit c = true

namespace IntegerForm

def sign (f : IntegerForm) : Text :=
  if f.negative then ['-'] else []

def mark (f : IntegerForm) : Text :=
  if f.long then ['L'] else []

def text (f : IntegerForm) : Text :=
  f.sign ++ (f.digits ++ f.mark)

/-- The integer that is written, the first digit counting most. -/
def value (f : IntegerForm) : Int :=
  let magnitude : Int := (Nat.ofDigits 10 (f.digits.reverse.map Text.digitValue) : Nat)
  if f.negative then -magnitude else magnitude

variable (f : IntegerForm)

theorem toInt?_digits : Text.toInt? (f.sign ++ f.digits) = some f.value := by
  unfold sign value
  rw [← Text.natOfDigits_eq]
  cases f.negative with
  | false => exact Text.toInt?_digits f.nonempty f.all
  | true => exact Text.toInt?_minus f.nonempty f.all

/-- A sign and digits are no point, no exponent and no mark. -/
theorem plain : ∀ c ∈ f.sign ++ f.digits, Scanner.isNumberStart c = true := by
  intro c member
  rcases List.mem_append.1 member with sign | digit
  · unfold IntegerForm.sign at sign
    split at sign
    · rw [List.mem_singleton.1 sign]
      decide
    · cases sign
  · rw [Scanner.isNumberStart, f.all c digit, Bool.or_true]

theorem parseNumber?_text :
    Sample.parseNumber? f.text =
      if f.long then (int64? f.value).map .long else Sample.ofInt? f.value := by
  unfold text mark
  rw [← List.append_assoc]
  cases f.long with
  | true => exact (Sample.parseNumber?_marked _).trans (by rw [f.toInt?_digits]; rfl)
  | false =>
      rw [if_neg (by decide), List.append_nil, Sample.parseNumber?_plain f.plain, f.toInt?_digits]
      rfl

theorem exists_int (short : f.long = false) (fits : HasBits 32 f.value) :
    ∃ n : Int32, n.toInt = f.value ∧ Sample.parseNumber? f.text = some (.int n) := by
  obtain ⟨n, found, same⟩ := int32?_of_hasBits fits
  refine ⟨n, same, ?_⟩
  rw [parseNumber?_text, short, if_neg (by decide), Sample.ofInt?, found]

theorem exists_long (wide : f.long = true ∨ ¬HasBits 32 f.value) (fits : HasBits 64 f.value) :
    ∃ n : Int64, n.toInt = f.value ∧ Sample.parseNumber? f.text = some (.long n) := by
  obtain ⟨n, found, same⟩ := int64?_of_hasBits fits
  refine ⟨n, same, ?_⟩
  rw [parseNumber?_text]
  split
  · rw [found]
    rfl
  · rename_i short
    rw [Sample.ofInt?, int32?_eq_none (wide.resolve_left short), found]
    rfl

theorem parseNumber?_eq_none (wide : ¬HasBits 64 f.value) : Sample.parseNumber? f.text = none := by
  have none_ := int64?_eq_none wide
  have noInt := int32?_eq_none fun fits => wide (fits.mono (by decide))
  rw [parseNumber?_text, Sample.ofInt?, noInt, none_]
  exact ite_self _

/-- The characters of an integer, up to what does not go on with a number. -/
theorem run {rest : Text} (stops : rest.head?.any Symbol.isNumberChar = false) :
    ∃ x tail, f.text = x :: tail ∧ Scanner.isNumberStart x = true ∧
      Scanner.numberRun x (tail ++ rest) = tail := by
  obtain ⟨x, tail, whole, digits⟩ : ∃ x tail, f.sign ++ f.digits = x :: tail ∧
      ∀ c ∈ tail, Text.isDigit c = true := by
    unfold sign
    cases f.negative with
    | true => exact ⟨'-', f.digits, rfl, f.all⟩
    | false =>
        obtain ⟨x, tail, same⟩ := List.exists_cons_of_ne_nil f.nonempty
        exact ⟨x, tail, same, fun c member => f.all c (by rw [same]; exact .tail x member)⟩
  have starts : Scanner.isNumberStart x = true := f.plain x (by rw [whole]; exact .head _)
  have text : f.text = x :: (tail ++ f.mark) := by
    rw [IntegerForm.text, ← List.append_assoc, whole, List.cons_append]
  refine ⟨x, tail ++ f.mark, text, starts, ?_⟩
  obtain ⟨y, plain, run⟩ :=
    Scanner.numberRun_digits digits (Scanner.plain_of_isNumberStart starts) (f.mark ++ rest)
  rw [List.append_assoc, run]
  unfold mark
  cases f.long with
  | true => exact congrArg (tail ++ ·) (Scanner.numberRun_mark y rest)
  | false => exact congrArg (tail ++ ·) (Scanner.numberRun_stops plain stops)

end IntegerForm

namespace Scanner

variable {c d : Cursor}

/-- An integer is the run of characters of a number at its place. -/
theorem number_integer (f : IntegerForm) {rest : Text} (written : c.rest = f.text ++ rest)
    (stops : rest.head?.any Symbol.isNumberChar = false) :
    number c =
      (Sample.parseNumber? f.text).elim
        (.error ⟨c.offset, .invalidNumber (String.ofList f.text)⟩) fun sample =>
          .ok (sample, ⟨c.offset + Text.byteLength f.text, rest⟩) := by
  obtain ⟨x, tail, whole, starts, run⟩ := f.run stops
  obtain ⟨offset, _⟩ := c
  obtain rfl : _ = f.text ++ rest := written
  have length := (numberRun_cut x (tail ++ rest)).2
  rw [run] at length
  rw [whole, List.cons_append, number_eq, run, List.drop_left, Text.byteLength_cons, length,
    utf8Size_of_isNumberStart starts, Nat.add_assoc, Nat.add_comm tail.length]

/-- The place of the sample of a parameter: behind its name, perhaps a type, and an equals sign. -/
def SampleAhead (c : Cursor) (name : Ident) (type : Option ValueType) (d : Cursor) : Prop :=
  ∃ m n, Word c name m ∧ Announced ':' TypeAt m type n ∧ Sign '=' n d

/-- An announced part is read before what follows it. -/
theorem announced_bind {sign : Char} {item : Scan α} {Item : Cursor → α → Cursor → Prop}
    {next : Option α → Scan β} {part : Option α}
    (reaches : ∀ c a d, Reaches item c a d ↔ Item c.skip a d)
    (at_ : Announced sign Item c.skip part d) :
    ∃ e, e.skip = d ∧
      (eat sign >>= fun b =>
        if b = true then some <$> item >>= next else pure none >>= next) c = next part e := by
  rcases at_ with ⟨m, a, here, one, rfl⟩ | ⟨absent, rfl, rfl⟩
  · obtain ⟨e, eaten, rfl⟩ := reaches_eat.2 (.inl ⟨rfl, here⟩)
    obtain ⟨e', read, there⟩ := (reaches e a d).2 one
    have mapped : (some <$> item) e = .ok (some a, e') := by
      rw [map_eq_pure_bind, bind_of_ok read]
      rfl
    refine ⟨e', there, ?_⟩
    rw [bind_of_ok eaten, if_pos rfl, bind_of_ok mapped]
  · have none_ : eat sign c = .ok (false, c.skip) := by rw [eat_eq, if_neg absent]
    refine ⟨c.skip, c.skip_skip, ?_⟩
    rw [bind_of_ok none_]
    rfl

/-- Behind the equals sign a parameter is what its sample makes it, or fails as the sample does. -/
theorem param_of_sample {lines : LineIndex} {name : Ident} {type : Option ValueType}
    (ahead : SampleAhead c.skip name type d) :
    param lines c =
      (sample >>= fun s => pure ⟨name, lines.line name.span.start, type, some s⟩) d := by
  obtain ⟨m, n, word, note, equals⟩ := ahead
  obtain ⟨e, read, rfl⟩ := reaches_ident.2 word
  unfold param
  rw [bind_of_ok read]
  obtain ⟨e', rfl, typed⟩ := announced_bind reaches_type note
  rw [typed]
  obtain ⟨e'', eaten, rfl⟩ := reaches_eat.2 (.inl ⟨rfl, equals⟩)
  dsimp only
  rw [bind_of_ok eaten, if_pos rfl, bind_map_left]
  simp only [Option.isNone_some, Bool.and_false, Bool.false_eq_true, if_false]
  change (sample e'' >>= _) = (sample e''.skip >>= _)
  rw [sample_eq, sample_eq, e''.skip_skip]

/-- Integers keep their values, in the narrowest type that their mark permits. -/
theorem param_integer (lines : LineIndex) {name : Ident} {type : Option ValueType}
    (f : IntegerForm) {rest : Text} (ahead : SampleAhead c.skip name type d)
    (written : d.rest = f.text ++ rest) (stops : rest.head?.any Symbol.isNumberChar = false) :
    let made (s : Sample) : ParamDecl := ⟨name, lines.line name.span.start, type, some s⟩
    let behind : Cursor := ⟨d.offset + Text.byteLength f.text, rest⟩
    (f.long = false → HasBits 32 f.value →
      ∃ n : Int32, n.toInt = f.value ∧ param lines c = .ok (made (.int n), behind)) ∧
    (f.long = true ∨ ¬HasBits 32 f.value → HasBits 64 f.value →
      ∃ n : Int64, n.toInt = f.value ∧ param lines c = .ok (made (.long n), behind)) ∧
    (¬HasBits 64 f.value →
      param lines c = .error ⟨d.offset, .invalidNumber (String.ofList f.text)⟩) := by
  have settled : d.skip = d := by
    obtain ⟨m, n, _, _, equals⟩ := ahead
    exact equals.ends
  obtain ⟨x, tail, whole, starts, -⟩ := f.run stops
  have first : d.rest.head? = some x := by rw [written, whole]; rfl
  have noQuote : x ≠ '\'' := by
    rintro rfl
    exact absurd starts (by decide)
  have read : sample d = number d := by
    rw [sample_eq, settled, first]
    simp only [if_neg noQuote, if_pos starts]
  have value : param lines c = (number d >>= fun (s, e) =>
      .ok (⟨name, lines.line name.span.start, type, some s⟩, e)) := by
    rw [param_of_sample ahead, ← read]
    rfl
  rw [number_integer f written stops] at value
  refine ⟨fun short fits => ?_, fun wide fits => ?_, fun wide => ?_⟩
  · obtain ⟨n, same, parsed⟩ := f.exists_int short fits
    exact ⟨n, same, by rw [value, parsed]; rfl⟩
  · obtain ⟨n, same, parsed⟩ := f.exists_long wide fits
    exact ⟨n, same, by rw [value, parsed]; rfl⟩
  · rw [value, f.parseNumber?_eq_none wide]
    rfl

/-- The least integer of 64 bits, behind zeros. -/
theorem param_integer_least :
    let least : IntegerForm :=
      ⟨true, ['0', '0', '9', '2', '2', '3', '3', '7', '2', '0', '3', '6', '8', '5', '4', '7', '7',
        '5', '8', '0', '8'], false, by decide, List.all_eq_true.1 (by decide)⟩
    ∃ n : Int64, n.toInt = -9223372036854775808 ∧
      param ⟨[0]⟩ ⟨0, 'p' :: '=' :: (least.text ++ [')'])⟩ =
        .ok (⟨⟨"p", ⟨0, 1⟩⟩, 1, none, some (.long n)⟩, ⟨24, [')']⟩) := by
  intro least
  have name : Reaches (ident "") ⟨0, 'p' :: '=' :: (least.text ++ [')'])⟩ ⟨"p", ⟨0, 1⟩⟩
      ⟨1, '=' :: (least.text ++ [')'])⟩ := ⟨⟨1, _⟩, by rfl, by rfl⟩
  have equals : Reaches (expect '=') ⟨1, '=' :: (least.text ++ [')'])⟩ ⟨⟩
      ⟨2, least.text ++ [')']⟩ := ⟨⟨2, _⟩, by rfl, by rfl⟩
  have ahead : SampleAhead (Cursor.mk 0 ('p' :: '=' :: (least.text ++ [')']))).skip
      ⟨"p", ⟨0, 1⟩⟩ none ⟨2, least.text ++ [')']⟩ :=
    ⟨_, _, reaches_ident.1 name, .inr ⟨by decide, rfl, rfl⟩, reaches_expect.1 equals⟩
  have value : least.value = -9223372036854775808 := by decide +kernel
  have length : 2 + Text.byteLength least.text = 24 := by decide +kernel
  obtain ⟨n, same, read⟩ := (param_integer ⟨[0]⟩ least ahead rfl rfl).2.1
    (.inr (by rw [value]; decide)) (by rw [value]; decide)
  refine ⟨n, same.trans value, read.trans ?_⟩
  rw [length]
  rfl

end Scanner

end SqlUnits
