import SqlUnits.Proofs.Number.Integer
import SqlUnits.Proofs.Text.Hex
import SqlUnits.Proofs.Unit.Grammar
import SqlUnits.Proofs.Unit.Splicing
/-!
The symbols that units are written in. Blanks and comment lines may stand between any two of them,
and must where the second one would be read as a part of the first.
-/

namespace SqlUnits

open Scanner (IsName isQuote quotedForm)

inductive Symbol where
  | word (name : String)
  | sign (c : Char)
  | int (n : Int32)
  | long (n : Int64)
  | quoted (s : String)
  | hex (bytes : List UInt8)
  | block (sql : String)

/-- The text of a statement, which is trimmed when it is read, and whose block ends at its own
brace. -/
structure IsStatement (sql : String) : Prop where
  nonempty : sql ≠ ""
  trimmed : Text.trim sql.toList = sql.toList
  closes : Query.IsInside (' ' :: (sql.toList ++ [' ']))

namespace Symbol

def signs : List Char :=
  ['(', ')', '[', ']', '\x7b', '\x7d', ',', ':', '=']

def isNumberChar (c : Char) : Bool :=
  Text.isDigit c || c == '.' || c == 'e' || c == 'E' || c == 'L'

/-- How a symbol is written. The mark of a long integer may be left off one that is too wide for
anything else. -/
inductive Spelled : Symbol → Text → Prop
  | word {name : String} : IsName name.toList → Spelled (word name) name.toList
  | sign {c : Char} : c ∈ signs → Spelled (sign c) [c]
  | int {n : Int32} : Spelled (int n) (toString n.toInt).toList
  | long {n : Int64} : Spelled (long n) ((toString n.toInt).toList ++ ['L'])
  | wide {n : Int64} : int32? n.toInt = none → Spelled (long n) (toString n.toInt).toList
  | quoted {s : String} : Spelled (quoted s) (quotedForm s)
  | hex {x : Char} {bytes : List UInt8} : x = 'x' ∨ x = 'X' →
      Spelled (hex bytes) (x :: quotedForm (Hex.ofBytes bytes))
  | block {sql : String} {lead trail : Text} : IsStatement sql →
      (∀ c ∈ lead, Text.isBlank c = true) → (∀ c ∈ trail, Text.isBlank c = true) →
      Spelled (block sql) ('\x7b' :: (lead ++ (sql.toList ++ (trail ++ ['\x7d']))))

/-- The characters that would go on with a symbol. -/
def stop : Symbol → Char → Bool
  | word _ => Text.isIdentChar
  | int _ | long _ => isNumberChar
  | quoted _ | hex _ => isQuote
  | sign _ | block _ => fun _ => false

end Symbol

/-- Blanks and comments in front of a text. A comment ends with its line, or with the whole text. -/
inductive Trivia : Text → Text → Prop
  | none {rest : Text} : Trivia [] rest
  | blank {c : Char} {gap rest : Text} : Text.isBlank c = true → Trivia gap rest →
      Trivia (c :: gap) rest
  | comment {line gap rest : Text} : '\n' ∉ line → Trivia gap rest →
      Trivia ('/' :: '/' :: (line ++ '\n' :: gap)) rest
  | last {line : Text} : '\n' ∉ line → Trivia ('/' :: '/' :: line) []

/-- A text is written in symbols. -/
inductive Laid : List Symbol → Text → Prop
  | nil : Laid [] []
  | cons {s : Symbol} {ss : List Symbol} {text gap rest : Text} : s.Spelled text →
      Trivia gap rest → (gap = [] → rest.head?.any s.stop = false) → Laid ss rest →
      Laid (s :: ss) (text ++ (gap ++ rest))

namespace Laid

variable {s : Symbol} {ss : List Symbol} {text rest : Text}

/-- A blank may stand behind every symbol. -/
theorem spaced {blank : Char} (isBlank : Text.isBlank blank = true) (spelled : s.Spelled text)
    (laid : Laid ss rest) : Laid (s :: ss) (text ++ ([blank] ++ rest)) :=
  .cons spelled (.blank isBlank .none) (fun none => absurd none (List.cons_ne_nil _ _)) laid

theorem tight (spelled : s.Spelled text) (stops : rest.head?.any s.stop = false)
    (laid : Laid ss rest) : Laid (s :: ss) (text ++ rest) :=
  .cons spelled .none (fun _ => stops) laid

end Laid

namespace Scanner

variable {c d : Cursor} {ss : List Symbol}

theorem isNumberStart_toString (n : Int) :
    ∀ c ∈ (toString n).toList, isNumberStart c = true := by
  intro c member
  rw [Text.toList_toString, List.mem_append] at member
  rcases member with sign | digit
  · split at sign
    · rw [List.mem_singleton.1 sign]
      decide
    · cases sign
  · rw [isNumberStart, Text.isDigit_of_mem_toDigits digit, Bool.or_true]

/-- The decimal form of an integer. -/
theorem toString_cons (n : Int) :
    ∃ x tail, (toString n).toList = x :: tail ∧ isNumberStart x = true ∧
      ∀ c ∈ tail, Text.isDigit c = true := by
  have digits (c : Char) (member : c ∈ Nat.toDigits 10 n.natAbs) :=
    Text.isDigit_of_mem_toDigits member
  rw [Text.toList_toString]
  split
  · exact ⟨'-', _, rfl, rfl, digits⟩
  · have some_ : Nat.toDigits 10 n.natAbs ≠ [] := Nat.toDigits_ne_nil
    obtain ⟨x, tail, whole⟩ := List.exists_cons_of_ne_nil some_
    rw [whole] at digits ⊢
    refine ⟨x, tail, rfl, ?_, fun c member => digits c (.tail x member)⟩
    rw [isNumberStart, digits x (.head _), Bool.or_true]

theorem solid_of_isNumberChar {x : Char} (number : Symbol.isNumberChar x = true) : Solid x := by
  simp only [Symbol.isNumberChar, Bool.or_eq_true, beq_iff_eq] at number
  rcases number with (((digit | rfl) | rfl) | rfl) | rfl
  · exact solid_of_isIdentChar (Text.isIdentChar_of_isDigit digit)
  all_goals exact ⟨by decide, by decide⟩

end Scanner

open Scanner

theorem Symbol.solid_of_stop {s : Symbol} {x : Char} (stops : s.stop x = true) : Solid x := by
  cases s with
  | word => exact solid_of_isIdentChar stops
  | int | long => exact solid_of_isNumberChar stops
  | quoted | hex =>
      rw [eq_of_beq stops]
      exact ⟨by decide, by decide⟩
  | sign | block => cases stops

/-- The characters that every symbol begins with but a sign. -/
def Symbol.isStart (x : Char) : Bool :=
  Text.isIdentChar x || x == '-' || x == '\'' || x == '\x7b'

theorem Symbol.solid_of_isStart {x : Char} (starts : isStart x = true) : Solid x := by
  simp only [isStart, Bool.or_eq_true, beq_iff_eq] at starts
  rcases starts with ((letter | rfl) | rfl) | rfl
  · exact solid_of_isIdentChar letter
  all_goals exact ⟨by decide, by decide⟩

theorem Symbol.Spelled.begins {s : Symbol} {text : Text} (spelled : s.Spelled text) :
    (∃ c ∈ signs, s = .sign c ∧ text = [c]) ∨ ∃ x, text.head? = some x ∧ isStart x = true := by
  have number (n : Int) (more : Text) :
      ∃ x, ((toString n).toList ++ more).head? = some x ∧ isStart x = true := by
    obtain ⟨x, tail, whole, starts, _⟩ := toString_cons n
    refine ⟨x, by rw [whole]; rfl, ?_⟩
    rcases Bool.or_eq_true_iff.1 starts with minus | digit
    · simp [isStart, minus]
    · simp [isStart, Text.isIdentChar_of_isDigit digit]
  cases spelled with
  | word name =>
      obtain ⟨x, rest, whole⟩ := List.exists_cons_of_ne_nil name.nonempty
      have letter := name.all x (by simp [whole])
      exact .inr ⟨x, by rw [whole]; rfl, by simp [isStart, letter]⟩
  | @sign c member => exact .inl ⟨c, member, rfl, rfl⟩
  | int | wide => exact .inr (by simpa using number _ [])
  | long => exact .inr (number _ ['L'])
  | quoted => exact .inr ⟨'\'', rfl, by decide⟩
  | @hex x _ letter => exact .inr ⟨x, rfl, by rcases letter with rfl | rfl <;> decide⟩
  | block => exact .inr ⟨'\x7b', rfl, by decide⟩

theorem Symbol.Spelled.solid {s : Symbol} {text : Text} (spelled : s.Spelled text) :
    ∃ x, text.head? = some x ∧ Solid x := by
  rcases spelled.begins with ⟨c, member, _, rfl⟩ | ⟨x, ahead, starts⟩
  · have all : signs.all (fun c => !Text.isBlank c && c != '/') = true := by decide
    exact ⟨c, rfl, by simpa [Solid] using List.all_eq_true.1 all c member⟩
  · exact ⟨x, ahead, solid_of_isStart starts⟩

theorem skipTrivia_line {line : Text} (noNewline : '\n' ∉ line) (o : Nat) (rest : Text) :
    skipTrivia true o (line ++ rest) = skipTrivia true (o + Text.byteLength line) rest := by
  induction line generalizing o with
  | nil => rfl
  | cons c line ih =>
      rw [List.mem_cons, not_or] at noNewline
      have goesOn : (c != '\n') = true := bne_iff_ne.2 (Ne.symm noNewline.1)
      rw [List.cons_append, skipTrivia, if_pos rfl, goesOn, ih noNewline.2, Text.byteLength_cons,
        Nat.add_assoc]

theorem Trivia.skips {gap rest : Text} (trivia : Trivia gap rest) (settled : Settled rest)
    (o : Nat) : skipTrivia false o (gap ++ rest) = ⟨o + Text.byteLength gap, rest⟩ := by
  have slash (o : Nat) (more : Text) :
      skipTrivia false o ('/' :: '/' :: more) = skipTrivia true (o + 2) more := rfl
  have size : '/'.utf8Size = 1 ∧ '\n'.utf8Size = 1 := by decide
  induction trivia generalizing o with
  | none => exact skipTrivia_of_settled settled o
  | @blank c gap rest blank _ ih =>
      rw [List.cons_append, skipTrivia, if_neg (by decide), if_pos blank, ih settled,
        Text.byteLength_cons, Nat.add_assoc]
  | @comment line gap rest noNewline _ ih =>
      have newline (o : Nat) : skipTrivia true o ('\n' :: (gap ++ rest)) =
          skipTrivia false (o + 1) (gap ++ rest) := rfl
      have shape : '/' :: '/' :: (line ++ '\n' :: gap) ++ rest =
          '/' :: '/' :: (line ++ '\n' :: (gap ++ rest)) := by simp
      rw [shape, slash, skipTrivia_line noNewline, newline, ih settled]
      simp only [Text.byteLength_cons, Text.byteLength_append, size]
      congr 1
      omega
  | @last line noNewline =>
      rw [List.append_nil, slash]
      have line := skipTrivia_line noNewline (o + 2) []
      rw [List.append_nil] at line
      rw [line]
      show Scanner.Cursor.mk _ _ = _
      simp only [Text.byteLength_cons, size]
      congr 1
      omega

/-- Where something stands in front of a text, nothing of a symbol before it goes on. -/
theorem Trivia.stops {gap rest : Text} (trivia : Trivia gap rest) (some_ : gap ≠ []) (s : Symbol) :
    (gap ++ rest).head?.any s.stop = false := by
  have ends {x : Char} (hollow : ¬Solid x) : s.stop x = false :=
    eq_false_of_ne_true fun goesOn => hollow (Symbol.solid_of_stop goesOn)
  cases trivia with
  | none => exact absurd rfl some_
  | blank blank _ => exact ends fun solid => absurd blank (ne_true_of_eq_false solid.1)
  | comment | last => exact ends fun solid => solid.2 rfl

variable {ss : List Symbol} {c : Scanner.Cursor}

theorem Laid.settled {text : Text} (laid : Laid ss text) : Settled text := by
  cases laid with
  | nil => trivial
  | cons spelled _ _ _ =>
      obtain ⟨x, ahead, solid⟩ := spelled.solid
      exact settled_of_head (by rw [List.head?_append, ahead]; rfl) solid

/-- The first symbol of a text, and what stands between it and the next one. -/
theorem Laid.first {s : Symbol} (laid : Laid (s :: ss) c.rest) :
    ∃ text gap d, s.Spelled text ∧ Stretch c (text ++ gap) d ∧ Gap gap d.rest ∧
      (gap ++ d.rest).head?.any s.stop = false ∧ Laid ss d.rest := by
  obtain ⟨offset, whole⟩ := c
  obtain _ | @⟨_, _, text, gap, rest, spelled, trivia, tight, laid⟩ := laid
  have settled := laid.settled
  let d : Scanner.Cursor := ⟨offset + Text.byteLength (text ++ gap), rest⟩
  refine ⟨text, gap, d, spelled, ⟨(List.append_assoc _ _ _).symm, rfl⟩,
    ⟨settled, trivia.skips settled⟩, ?_, laid⟩
  by_cases none : gap = []
  · rw [none, List.nil_append]
    exact tight none
  · exact trivia.stops none s

/-- A sign that is not the first symbol is not ahead. -/
theorem Laid.head_ne {text : Text} {sign : Char} (laid : Laid ss text)
    (other : ss.head? ≠ some (.sign sign)) (noStart : Symbol.isStart sign = false) :
    text.head? ≠ some sign := by
  cases laid with
  | nil => simp
  | @cons s _ text gap rest spelled _ _ _ =>
      intro ahead
      rcases spelled.begins with ⟨c, _, rfl, rfl⟩ | ⟨x, begins, starts⟩
      · exact other (congrArg (some <| Symbol.sign ·) (Option.some.inj ahead))
      · rw [List.head?_append, begins] at ahead
        rw [Option.some.inj ahead, noStart] at starts
        cases starts

theorem Laid.word {name : String} (laid : Laid (.word name :: ss) c.rest) :
    ∃ w d, Word c w d ∧ w.name = name ∧ Laid ss d.rest := by
  obtain ⟨_, gap, d, spelled, stretch, gaps, stops, rest⟩ := laid.first
  cases spelled with
  | word isName =>
      exact ⟨_, d, word_of_stretch stretch isName gaps stops, String.ofList_toList, rest⟩

theorem Laid.sign {sign : Char} (laid : Laid (.sign sign :: ss) c.rest) :
    ∃ d, Sign sign c d ∧ Laid ss d.rest := by
  obtain ⟨_, gap, d, spelled, stretch, gaps, _, rest⟩ := laid.first
  cases spelled with
  | sign => exact ⟨d, sign_iff.2 ⟨gap, stretch, gaps⟩, rest⟩

theorem Laid.quoted {s : String} (laid : Laid (.quoted s :: ss) c.rest) :
    ∃ d, Quote c s d ∧ Laid ss d.rest := by
  obtain ⟨_, gap, d, spelled, stretch, gaps, stops, rest⟩ := laid.first
  cases spelled with
  | quoted => exact ⟨d, ⟨_, stretch, gap, rfl, gaps, stops⟩, rest⟩

theorem Laid.block {sql : String} (laid : Laid (.block sql :: ss) c.rest) :
    ∃ text d, SqlAt c text d ∧ text.text = sql ∧ Laid ss d.rest := by
  obtain ⟨_, gap, d, spelled, stretch, gaps, _, rest⟩ := laid.first
  cases spelled with
  | @block _ lead trail statement leads trails =>
      have some_ : sql.toList ≠ [] := by simpa using statement.nonempty
      have inside := Text.trim_pad leads trails some_ statement.trimmed
      refine ⟨blockText c.offset (lead ++ (sql.toList ++ trail)), d, ⟨_, gap, ?_, gaps,
        statement.closes.pad leads trails, ?_, rfl⟩, ?_, rest⟩
      · simpa using stretch
      · rwa [inside]
      · rw [blockText, inside, String.ofList_toList]

/-! Samples. -/

namespace Sample

/-- Without a mark, a point and an exponent a number is an integer. -/
theorem parseNumber?_plain {cs : Text} (plain : ∀ c ∈ cs, isNumberStart c = true) :
    parseNumber? cs = (Text.toInt? cs).bind ofInt? := by
  have noMark : cs.getLast? ≠ some 'L' := by
    intro mark
    exact absurd (plain 'L' (List.mem_of_getLast? mark)) (by decide)
  have whole : cs.any (fun c => c == '.' || c == 'e' || c == 'E') = false := by
    rw [List.any_eq_false]
    intro c member point
    have starts := plain c member
    simp only [Bool.or_eq_true, beq_iff_eq] at point
    rcases point with (rfl | rfl) | rfl <;> exact absurd starts (by decide)
  unfold parseNumber?
  rw [if_neg noMark, whole]
  rfl

theorem parseNumber?_marked (cs : Text) :
    parseNumber? (cs ++ ['L']) = (Text.toInt? cs).bind fun n => (int64? n).map long := by
  unfold parseNumber?
  rw [List.getLast?_concat, if_pos rfl, List.dropLast_concat]
  cases Text.toInt? cs with
  | none => rfl
  | some n => exact Option.map_eq_bind.symm

theorem parseNumber?_toString (n : Int) : parseNumber? (toString n).toList = ofInt? n := by
  rw [parseNumber?_plain (isNumberStart_toString n), Text.toInt?_toString]
  rfl

theorem parseNumber?_long (n : Int64) :
    parseNumber? ((toString n.toInt).toList ++ ['L']) = some (long n) := by
  rw [parseNumber?_marked, Text.toInt?_toString, Option.bind_some, int64?_toInt]
  rfl

end Sample

namespace Scanner

/-- A character that no sign of an exponent follows. -/
def Plain (x : Char) : Prop :=
  x ≠ 'e' ∧ x ≠ 'E'

theorem plain_of_isNumberStart {x : Char} (starts : isNumberStart x = true) : Plain x := by
  constructor <;> rintro rfl <;> exact absurd starts (by decide)

/-- Digits are taken up to what follows them. -/
theorem numberRun_digits {tail : Text} (digits : ∀ c ∈ tail, Text.isDigit c = true) {x : Char}
    (plain : Plain x) (rest : Text) :
    ∃ y, Plain y ∧ numberRun x (tail ++ rest) = tail ++ numberRun y rest := by
  induction tail generalizing x with
  | nil => exact ⟨x, plain, rfl⟩
  | cons c tail ih =>
      have digit := digits c (.head _)
      have next : Plain c := plain_of_isNumberStart (by rw [isNumberStart, digit, Bool.or_true])
      obtain ⟨y, last, run⟩ := ih (fun d member => digits d (.tail c member)) next
      refine ⟨y, last, ?_⟩
      rw [List.cons_append, numberRun, run]
      simp [digit]

theorem numberRun_mark (x : Char) (rest : Text) : numberRun x ('L' :: rest) = ['L'] := by
  have noDigit : Text.isDigit 'L' = false := by decide
  simp [numberRun, noDigit]

theorem numberRun_stops {x : Char} (plain : Plain x) {rest : Text}
    (stops : rest.head?.any Symbol.isNumberChar = false) : numberRun x rest = [] := by
  obtain ⟨noLower, noUpper⟩ := plain
  cases rest with
  | nil => rfl
  | cons c rest =>
      have other : Symbol.isNumberChar c = false := stops
      simp only [Symbol.isNumberChar, Bool.or_eq_false_iff] at other
      obtain ⟨⟨⟨⟨digit, point⟩, lower⟩, upper⟩, mark⟩ := other
      simp [numberRun, digit, point, lower, upper, mark, noLower, noUpper]

end Scanner

theorem Laid.int {n : Int32} (laid : Laid (.int n :: ss) c.rest) :
    ∃ d, SampleAt c (.int n) d ∧ Laid ss d.rest := by
  obtain ⟨_, gap, d, spelled, stretch, gaps, stops, rest⟩ := laid.first
  cases spelled with
  | int =>
      have value : Sample.parseNumber? (toString n.toInt).toList = some (.int n) := by
        rw [Sample.parseNumber?_toString, Sample.ofInt?, int32?_toInt]
      obtain ⟨x, tail, whole, starts, digits⟩ := toString_cons n.toInt
      rw [whole] at stretch value
      obtain ⟨y, plain, run⟩ := numberRun_digits digits (plain_of_isNumberStart starts) _
      rw [numberRun_stops plain stops, List.append_nil] at run
      exact ⟨d, .number stretch gaps starts run value, rest⟩

theorem Laid.long {n : Int64} (laid : Laid (.long n :: ss) c.rest) :
    ∃ d, SampleAt c (.long n) d ∧ Laid ss d.rest := by
  obtain ⟨_, gap, d, spelled, stretch, gaps, stops, rest⟩ := laid.first
  obtain ⟨x, tail, whole, starts, digits⟩ := toString_cons n.toInt
  have plain := plain_of_isNumberStart starts
  cases spelled with
  | long =>
      have value := Sample.parseNumber?_long n
      rw [whole] at stretch value
      obtain ⟨y, _, run⟩ := numberRun_digits digits plain ('L' :: (gap ++ d.rest))
      rw [numberRun_mark] at run
      exact ⟨d, .number stretch gaps starts (by simpa using run) value, rest⟩
  | wide wide =>
      have value : Sample.parseNumber? (toString n.toInt).toList = some (.long n) := by
        rw [Sample.parseNumber?_toString, Sample.ofInt?, wide, int64?_toInt]
        rfl
      rw [whole] at stretch value
      obtain ⟨y, plain, run⟩ := numberRun_digits digits plain _
      rw [numberRun_stops plain stops, List.append_nil] at run
      exact ⟨d, .number stretch gaps starts run value, rest⟩

theorem Laid.hex {bytes : List UInt8} (laid : Laid (.hex bytes :: ss) c.rest) :
    ∃ d, SampleAt c (.bytes bytes) d ∧ Laid ss d.rest := by
  obtain ⟨_, gap, d, spelled, stretch, gaps, stops, rest⟩ := laid.first
  cases spelled with
  | @hex x _ letter =>
      obtain ⟨first, second⟩ :=
        Stretch.split (t := [x]) (u := quotedForm (Hex.ofBytes bytes) ++ gap) stretch
      have quote : Quote _ _ d := ⟨_, second, gap, rfl, gaps, stops⟩
      exact ⟨d, .hex letter first quote (Hex.toBytes?_ofBytes bytes), rest⟩

/-- The symbols of a sample; a double is written in none. -/
def Sample.symbols : Sample → List Symbol
  | null => [.word "null"]
  | bool true => [.word "true"]
  | bool false => [.word "false"]
  | int n => [.int n]
  | long n => [.long n]
  | double _ => []
  | text s => [.quoted s]
  | bytes b => [.hex b]
  | date s => [.word "date", .quoted s]
  | timestamp s => [.word "timestamp", .quoted s]

theorem Laid.sample {sample : Sample} (exact_ : ∀ d, sample ≠ .double d)
    (laid : Laid (sample.symbols ++ ss) c.rest) : ∃ d, SampleAt c sample d ∧ Laid ss d.rest := by
  have word {name : String} {sample : Sample} (known : plainSample? name = some sample)
      (laid : Laid (.word name :: ss) c.rest) : ∃ d, SampleAt c sample d ∧ Laid ss d.rest := by
    obtain ⟨w, d, word, rfl, rest⟩ := laid.word
    exact ⟨d, .word word known, rest⟩
  cases sample with
  | null => exact word rfl laid
  | bool b => cases b <;> exact word rfl laid
  | int => exact laid.int
  | long => exact laid.long
  | double d => exact absurd rfl (exact_ d)
  | text s =>
      obtain ⟨d, quote, rest⟩ := laid.quoted
      exact ⟨d, .text quote, rest⟩
  | bytes => exact laid.hex
  | date s =>
      obtain ⟨w, m, word, named, rest⟩ := laid.word
      obtain ⟨d, quote, rest⟩ := rest.quoted
      exact ⟨d, .date word named quote, rest⟩
  | timestamp s =>
      obtain ⟨w, m, word, named, rest⟩ := laid.word
      obtain ⟨d, quote, rest⟩ := rest.quoted
      exact ⟨d, .timestamp word named quote, rest⟩

end SqlUnits
