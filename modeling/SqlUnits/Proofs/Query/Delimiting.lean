import Mathlib.Data.List.Infix
import SqlUnits.Proofs.Query.Block
import SqlUnits.Proofs.Query.Piece
import SqlUnits.Query.Parsed
/-!
Where regions and blocks end, told without reading a text. A quoted region ends at the first quote
that is not doubled, a line comment at the end of its line, a block comment at its first closing
mark; a block ends at the first brace outside all regions at which as many braces are closed as
opened. So the inside of a block leaves no region open, and neither does the text that trimming
leaves of it; its pieces are read without fail but for placeholders with numbers.
-/

namespace SqlUnits.Query

/-- The inside of a quoted region, where quotes come in pairs. -/
inductive Paired (quote : Char) : Text → Prop
  | nil : Paired quote []
  | pair {inside : Text} : Paired quote inside → Paired quote (quote :: quote :: inside)
  | other {c : Char} {inside : Text} : c ≠ quote → Paired quote inside → Paired quote (c :: inside)

theorem closeQuote?_other {quote c : Char} (other : c ≠ quote) (rest : Text) :
    closeQuote? quote (c :: rest) =
      (closeQuote? quote rest).map fun (inside, after) => (c :: inside, after) := by
  cases rest with
  | nil => simp [closeQuote?, other]
  | cons d rest => simp [closeQuote?, other]

theorem Paired.closeQuote? {quote : Char} {inside after : Text} (paired : Paired quote inside)
    (single : after.head? ≠ some quote) :
    closeQuote? quote (inside ++ quote :: after) = some (inside ++ [quote], after) := by
  induction paired with
  | nil =>
      cases after with
      | nil => simp [Query.closeQuote?]
      | cons d after =>
          have different : d ≠ quote := by simpa using single
          simp [Query.closeQuote?, different]
  | pair _ ih => simp [Query.closeQuote?, ih]
  | other different _ ih => simp [closeQuote?_other different, ih]

theorem closeQuote?_eq_some_iff {quote : Char} {cs inside after : Text} :
    closeQuote? quote cs = some (inside, after) ↔
      ∃ body, Paired quote body ∧ inside = body ++ [quote] ∧ cs = inside ++ after ∧
        after.head? ≠ some quote := by
  constructor
  · intro closed
    have written := closeQuote?_append closed
    have next := closeQuote?_next closed
    obtain ⟨body, paired, whole⟩ : ∃ body, Paired quote body ∧ inside = body ++ [quote] := by
      clear written next
      fun_induction closeQuote? quote cs generalizing inside after with
      | case1 => simp at closed
      | case2 =>
          cases closed
          exact ⟨[], .nil, rfl⟩
      | case3 => simp at closed
      | case4 rest ih =>
          obtain ⟨⟨i, a⟩, tail, equality⟩ := Option.map_eq_some_iff.1 closed
          cases equality
          obtain ⟨body, paired, rfl⟩ := ih tail
          exact ⟨quote :: quote :: body, .pair paired, rfl⟩
      | case5 d rest _ =>
          cases closed
          exact ⟨[], .nil, rfl⟩
      | case6 c d rest different ih =>
          obtain ⟨⟨i, a⟩, tail, equality⟩ := Option.map_eq_some_iff.1 closed
          cases equality
          obtain ⟨body, paired, rfl⟩ := ih tail
          exact ⟨c :: body, .other different paired, rfl⟩
    exact ⟨body, paired, whole, written.symm, next⟩
  · rintro ⟨body, paired, rfl, rfl, single⟩
    rw [List.append_assoc]
    exact paired.closeQuote? single

theorem closeComment?_other {c : Char} {rest : Text} (other : c = '*' → rest.head? ≠ some '/') :
    closeComment? (c :: rest) =
      (closeComment? rest).map fun (inside, after) => (c :: inside, after) := by
  rw [closeComment?]
  rintro rest' rfl rfl
  exact other rfl rfl

theorem mark_infix_cons {c : Char} {cs : Text} :
    ['*', '/'] <:+: c :: cs ↔ (c = '*' ∧ cs.head? = some '/') ∨ ['*', '/'] <:+: cs := by
  rw [List.infix_cons_iff, List.cons_prefix_cons]
  refine or_congr_left (and_congr eq_comm ?_)
  cases cs with
  | nil => simp
  | cons d cs => simp [List.cons_prefix_cons, eq_comm]

theorem closeComment?_eq_some_iff {cs inside after : Text} :
    closeComment? cs = some (inside, after) ↔
      ∃ body, ¬['*', '/'] <:+: body ∧ inside = body ++ ['*', '/'] ∧ cs = inside ++ after := by
  constructor
  · intro closed
    have written := closeComment?_append closed
    obtain ⟨body, first, whole⟩ :
        ∃ body, ¬['*', '/'] <:+: body ∧ inside = body ++ ['*', '/'] := by
      fun_induction closeComment? cs generalizing inside after with
      | case1 =>
          cases closed
          exact ⟨[], by simp, rfl⟩
      | case2 c rest noMark ih =>
          obtain ⟨⟨i, a⟩, tail, equality⟩ := Option.map_eq_some_iff.1 closed
          cases equality
          have begins : i ++ after = rest := by simpa using written
          obtain ⟨body, first, rfl⟩ := ih tail begins
          refine ⟨c :: body, ?_, rfl⟩
          rw [mark_infix_cons]
          rintro (⟨rfl, slash⟩ | inner)
          · obtain ⟨more, rfl⟩ := List.head?_eq_some_iff.1 slash
            exact noMark _ rfl begins.symm
          · exact first inner
      | case3 => simp at closed
    exact ⟨body, first, whole, written.symm⟩
  · rintro ⟨body, first, rfl, rfl⟩
    rw [List.append_assoc]
    induction body with
    | nil => rfl
    | cons c body ih =>
        rw [mark_infix_cons, not_or] at first
        rw [List.cons_append, closeComment?_other, ih first.2]
        · rfl
        · rintro rfl slash
          refine first.1 ⟨rfl, ?_⟩
          cases body with
          | nil => simp at slash
          | cons d body => exact slash

theorem closeComment?_eq_none_iff {cs : Text} :
    closeComment? cs = none ↔ ¬['*', '/'] <:+: cs := by
  fun_induction closeComment? cs with
  | case1 rest => simp [mark_infix_cons]
  | case2 c rest noMark ih =>
      have other : ¬(c = '*' ∧ rest.head? = some '/') := by
        rintro ⟨rfl, slash⟩
        obtain ⟨more, rfl⟩ := List.head?_eq_some_iff.1 slash
        exact noMark _ rfl rfl
      simp [ih, mark_infix_cons, other]
  | case3 => simp

/-- A whole quoted region or comment, as it stands before a character or the end of the text. -/
inductive IsRegion (next : Option Char) : Text → Prop
  | quoted {quote : Char} {inside : Text} (mark : quote ∈ ['\'', '"', '\x60'])
      (paired : Paired quote inside) (single : next ≠ some quote) :
      IsRegion next (quote :: (inside ++ [quote]))
  | line {inside : Text} (oneLine : '\n' ∉ inside) (ends : next = none ∨ next = some '\n') :
      IsRegion next ('-' :: '-' :: inside)
  | block {inside : Text} (first : ¬['*', '/'] <:+: inside) :
      IsRegion next ('/' :: '*' :: (inside ++ ['*', '/']))

/-- A character that opens no region before what follows it. -/
structure OpensNone (c : Char) (next : Option Char) : Prop where
  quote : c ∉ ['\'', '"', '\x60']
  line : c = '-' → next ≠ some '-'
  block : c = '/' → next ≠ some '*'

theorem verbatim_eq_none_iff {c : Char} {rest : Text} :
    verbatim (c :: rest) = .none ↔ OpensNone c rest.head? := by
  constructor
  · intro plain
    obtain ⟨quote, line, block⟩ := verbatim_eq_none plain
    exact ⟨quote, line, block⟩
  · intro opens
    exact verbatim_plain opens.quote opens.line opens.block

theorem verbatim_eq_region_iff {cs text rest : Text} :
    verbatim cs = .region text rest ↔ cs = text ++ rest ∧ IsRegion rest.head? text := by
  constructor
  · intro read
    refine ⟨(verbatim_region read).1.symm, ?_⟩
    have ends := verbatim_endsBefore read
    unfold verbatim at read
    split at read
    case h_4 tail =>
      cases read
      refine .line ?_ ends
      intro newline
      have other := Text.forall_mem_takeWhile (· ≠ '\n') tail _ newline
      simp at other
    case h_5 =>
      obtain ⟨inside, closed, rfl⟩ := Verbatim.ofClosed_region read
      obtain ⟨body, first, rfl, _⟩ := closeComment?_eq_some_iff.1 closed
      exact .block first
    case h_6 => simp at read
    all_goals
      obtain ⟨inside, closed, rfl⟩ := Verbatim.ofClosed_region read
      obtain ⟨body, paired, rfl, _, single⟩ := closeQuote?_eq_some_iff.1 closed
      exact .quoted (by decide) paired single
  · rintro ⟨rfl, region⟩
    cases region with
    | @quoted quote inside mark paired single =>
        have closed := paired.closeQuote? single
        simp only [List.mem_cons, List.not_mem_nil, or_false] at mark
        rcases mark with rfl | rfl | rfl <;>
          simp [verbatim, Verbatim.ofClosed, closed]
    | @line inside oneLine ends =>
        have all : ∀ c ∈ inside, decide (c ≠ '\n') = true := by
          intro c member
          simp only [decide_eq_true_eq]
          rintro rfl
          exact oneLine member
        have stop : rest.head?.any (· ≠ '\n') = false := by
          rcases ends with none | newline
          · simp [none]
          · simp [newline]
        simp only [verbatim, List.cons_append, Text.takeWhile_run all stop,
          Text.dropWhile_run all stop]
    | @block inside first =>
        have closed : closeComment? (inside ++ ['*', '/'] ++ rest) =
            some (inside ++ ['*', '/'], rest) :=
          closeComment?_eq_some_iff.2 ⟨inside, first, rfl, rfl⟩
        simp only [verbatim, List.cons_append, closed, Verbatim.ofClosed, List.nil_append]

theorem IsRegion.before {next next' : Option Char} {text : Text} (region : IsRegion next text)
    (same : next' = none ∨ next' = next) : IsRegion next' text := by
  rcases same with rfl | rfl
  · cases region with
    | quoted mark paired _ => exact .quoted mark paired nofun
    | line oneLine _ => exact .line oneLine (.inl rfl)
    | block first => exact .block first
  · exact region

theorem OpensNone.before {next next' : Option Char} {c : Char} (opens : OpensNone c next)
    (same : next' = none ∨ next' = next) : OpensNone c next' := by
  rcases same with rfl | rfl
  · exact ⟨opens.quote, nofun, nofun⟩
  · exact opens

theorem Neutral.opensNone {c : Char} (neutral : Neutral c) (next : Option Char) :
    OpensNone c next := by
  unfold Neutral at neutral
  refine ⟨?_, ?_, ?_⟩ <;> simp_all

/-- Reading a text leads to `rest`, region by region and, between the regions, character by
character; these are the `visible` characters. -/
inductive Scans : Text → Text → Text → Prop
  | done {cs : Text} : Scans cs [] cs
  | region {text cs visible rest : Text} :
      IsRegion cs.head? text → Scans cs visible rest → Scans (text ++ cs) visible rest
  | char {c : Char} {cs visible rest : Text} :
      OpensNone c cs.head? → Scans cs visible rest → Scans (c :: cs) (c :: visible) rest

theorem head?_append_same {cs rest other : Text}
    (same : other.head? = none ∨ other.head? = rest.head?) :
    (cs ++ other).head? = none ∨ (cs ++ other).head? = (cs ++ rest).head? := by
  cases cs with
  | nil => exact same
  | cons c cs => exact .inr rfl

/-- What is read is read before every text that ends or goes on alike. -/
theorem Scans.cut {cs visible rest : Text} (scans : Scans cs visible rest) :
    ∃ read, cs = read ++ rest ∧
      ∀ other : Text, other.head? = none ∨ other.head? = rest.head? →
        Scans (read ++ other) visible other := by
  induction scans with
  | done => exact ⟨[], rfl, fun _ _ => .done⟩
  | @region text cs visible rest region _ ih =>
      obtain ⟨read, rfl, again⟩ := ih
      refine ⟨text ++ read, by simp, fun other same => ?_⟩
      rw [List.append_assoc]
      exact .region (region.before (head?_append_same same)) (again other same)
  | @char c cs visible rest opens _ ih =>
      obtain ⟨read, rfl, again⟩ := ih
      refine ⟨c :: read, rfl, fun other same => ?_⟩
      exact .char (opens.before (head?_append_same same)) (again other same)

/-- Reading comes from a text to what is behind its first region or character. -/
theorem Scans.step {cs visible rest : Text} (scans : Scans cs visible rest) :
    (cs = rest ∧ visible = []) ∨
      (∃ text after, verbatim cs = .region text after ∧ Scans after visible rest) ∨
        ∃ c after visible', cs = c :: after ∧ verbatim cs = .none ∧ visible = c :: visible' ∧
          Scans after visible' rest := by
  cases scans with
  | done => exact .inl ⟨rfl, rfl⟩
  | region region more =>
      exact .inr (.inl ⟨_, _, verbatim_eq_region_iff.2 ⟨rfl, region⟩, more⟩)
  | char opens more => exact .inr (.inr ⟨_, _, _, rfl, verbatim_eq_none_iff.2 opens, rfl, more⟩)

/-- How many braces are opened and not closed. -/
def depth (visible : Text) : Int :=
  visible.count '\x7b' - visible.count '\x7d'

@[simp] theorem depth_nil : depth [] = 0 := rfl

theorem depth_append (visible more : Text) :
    depth (visible ++ more) = depth visible + depth more := by
  simp only [depth, List.count_append]
  omega

theorem depth_cons (c : Char) (visible : Text) :
    depth (c :: visible) = depth [c] + depth visible :=
  depth_append [c] visible

/-- The count of open braces behind a character that does not close the last one. -/
theorem opened_char {c : Char} {opened : Nat} (inside : 0 < opened)
    (goesOn : ¬(c = '\x7d' && opened = 1)) :
    ∃ next : Nat,
      (if c = '\x7b' then opened + 1 else if c = '\x7d' then opened - 1 else opened) = next ∧
      0 < next ∧ (next : Int) = opened + depth [c] := by
  simp only [Bool.and_eq_true, decide_eq_true_eq, not_and] at goesOn
  refine ⟨_, rfl, ?_⟩
  by_cases opening : c = '\x7b'
  · subst opening
    have one : depth ['\x7b'] = 1 := rfl
    simp [one]
  · by_cases closing : c = '\x7d'
    · subst closing
      have one : depth ['\x7d'] = -1 := rfl
      have more := goesOn rfl
      rw [if_neg (by decide), if_pos rfl, one]
      omega
    · have none : depth [c] = 0 := by simp [depth, opening, closing]
      simp [opening, closing, none, inside]

/-- Reading leads to a brace at which, for the first time, as many braces are closed as opened. -/
def ClosesFirst (read rest : Text) : Prop :=
  ∃ visible, Scans (read ++ '\x7d' :: rest) visible ('\x7d' :: rest) ∧
    depth (visible ++ ['\x7d']) = 0 ∧
      ∀ before, before <+: visible → before ≠ [] → depth before ≠ 0

/-- Inside so many open braces, reading comes to the first brace that closes them all. -/
theorem blockEndFrom_eq_ok_iff {start opened offset stop : Nat} {cs : Text}
    (inside : 0 < opened) :
    blockEndFrom start opened offset cs = .ok stop ↔
      ∃ read rest visible, cs = read ++ '\x7d' :: rest ∧ stop = offset + Text.byteLength read ∧
        Scans cs visible ('\x7d' :: rest) ∧ opened + depth visible = 1 ∧
          ∀ before, before <+: visible → opened + depth before ≠ 0 := by
  constructor
  · intro ends
    fun_induction blockEndFrom start opened offset cs with
    | case1 | case2 => cases ends
    | case3 opened offset cs text rest read shorter ih =>
        obtain ⟨inner, after, visible, rfl, rfl, scans, last, first⟩ := ih inside ends
        obtain ⟨rfl, region⟩ := verbatim_eq_region_iff.1 (verbatim_of_region read)
        refine ⟨text ++ inner, after, visible, by simp, ?_, .region region scans, last, first⟩
        rw [Text.byteLength_append, Nat.add_assoc]
    | case4 opened offset cs c rest read shorter closes =>
        simp only [Bool.and_eq_true, decide_eq_true_eq] at closes
        obtain ⟨rfl, rfl⟩ := closes
        cases ends
        obtain rfl := lexeme_char read
        refine ⟨[], rest, [], rfl, rfl, .done, rfl, ?_⟩
        intro before first
        rw [List.prefix_nil.1 first]
        decide
    | case5 opened offset cs c rest read shorter goesOn next ih =>
        obtain rfl := lexeme_char read
        have opens := verbatim_eq_none_iff.1 (verbatim_of_char read)
        obtain ⟨opened', same, inner, step⟩ := opened_char inside goesOn
        obtain rfl : next = opened' := same
        obtain ⟨more, after, visible, rfl, rfl, scans, last, first⟩ := ih inner ends
        refine ⟨c :: more, after, c :: visible, rfl, ?_, .char opens scans, ?_, ?_⟩
        · rw [Text.byteLength_cons, Nat.add_assoc]
        · rw [depth_cons]
          omega
        · intro before isPrefix
          rcases List.prefix_cons_iff.1 isPrefix with rfl | ⟨before, rfl, shorter⟩
          · rw [depth_nil]
            omega
          · have open_ := first before shorter
            rw [depth_cons]
            omega
  · rintro ⟨read, rest, visible, whole, rfl, scans, last, first⟩
    generalize brace : '\x7d' :: rest = tail at whole scans
    induction scans generalizing opened offset read with
    | done =>
        obtain rfl : read = [] := by simpa using whole
        obtain rfl : opened = 1 := by
          rw [depth_nil] at last
          omega
        rw [← brace,
          blockEndFrom_char (lexeme_of_char ((by decide : Neutral '\x7d').verbatim rest))]
        rfl
    | @region text cs visible tail region scans ih =>
        obtain ⟨more, rfl, _⟩ := scans.cut
        obtain rfl : text ++ more = read := List.append_cancel_right (by simpa using whole)
        have here := lexeme_of_region (verbatim_eq_region_iff.2 ⟨rfl, region⟩)
        rw [blockEndFrom_region here, Text.byteLength_append, ← Nat.add_assoc]
        exact ih inside more last first brace rfl
    | @char c cs visible tail opens scans ih =>
        obtain ⟨more, rfl, _⟩ := scans.cut
        obtain rfl : c :: more = read := List.append_cancel_right (by simpa using whole)
        have here := first [c] (by simp)
        rw [depth_cons] at last
        have goesOn : ¬(c = '\x7d' && opened = 1) := by
          simp only [Bool.and_eq_true, decide_eq_true_eq]
          rintro ⟨rfl, rfl⟩
          exact here rfl
        obtain ⟨next, same, inner, step⟩ := opened_char inside goesOn
        rw [blockEndFrom_char (lexeme_of_char (verbatim_eq_none_iff.2 opens)), if_neg goesOn, same,
          Text.byteLength_cons, ← Nat.add_assoc]
        refine ih inner more ?_ ?_ brace rfl
        · omega
        · intro before isPrefix
          have open_ := first (c :: before) (List.cons_prefix_cons.2 ⟨rfl, isPrefix⟩)
          rw [depth_cons] at open_
          omega

/-- A block ends at the first brace that leaves none open. -/
theorem blockEnd_eq_ok_iff {before after : Text} {stop : Nat} :
    blockEnd (Text.byteLength before) ('\x7b' :: after) = .ok stop ↔
      ∃ read rest, '\x7b' :: after = read ++ '\x7d' :: rest ∧
        stop = Text.byteLength (before ++ read) ∧ ClosesFirst read rest := by
  have size : '\x7b'.utf8Size = 1 := by decide
  have one : depth ['\x7b'] = 1 := rfl
  have last : depth ['\x7d'] = -1 := rfl
  have opens := (by decide : Neutral '\x7b').opensNone after.head?
  rw [blockEnd_brace, blockEndFrom_eq_ok_iff Nat.one_pos]
  constructor
  · rintro ⟨read, rest, visible, rfl, rfl, scans, closed, first⟩
    refine ⟨'\x7b' :: read, rest, rfl, ?_, '\x7b' :: visible, .char opens scans, ?_, ?_⟩
    · rw [Text.byteLength_append, Text.byteLength_cons, size, Nat.add_assoc]
    · rw [depth_append, depth_cons, one, last]
      omega
    · intro before isPrefix some_
      rcases List.prefix_cons_iff.1 isPrefix with rfl | ⟨before, rfl, shorter⟩
      · exact absurd rfl some_
      · rw [depth_cons, one]
        exact first before shorter
  · rintro ⟨read, rest, whole, rfl, visible, scans, closed, first⟩
    rw [← whole] at scans
    rcases scans.step with ⟨same, _⟩ | ⟨_, _, region, _⟩ | ⟨_, _, visible, same, _, rfl, scans⟩
    · cases same
    · rw [verbatim_eq_none_iff.2 opens] at region
      cases region
    · cases same
      cases read with
      | nil => cases whole
      | cons c read =>
          obtain ⟨rfl, rfl⟩ := List.cons.inj whole
          refine ⟨read, rest, visible, rfl, ?_, scans, ?_, ?_⟩
          · rw [Text.byteLength_append, Text.byteLength_cons, size, Nat.add_assoc]
          · rw [depth_append, depth_cons, one, last] at closed
            omega
          · intro before isPrefix
            have open_ := first ('\x7b' :: before) (List.cons_prefix_cons.2 ⟨rfl, isPrefix⟩) nofun
            rw [depth_cons, one] at open_
            exact open_

/-- Behind its closing brace a text does not matter to a block, and neither does what is before
it. -/
theorem blockEnd_local {before inside rest : Text}
    (ends : blockEnd (Text.byteLength before) ('\x7b' :: (inside ++ '\x7d' :: rest)) =
      .ok (Text.byteLength (before ++ '\x7b' :: inside))) (before' rest' : Text) :
    blockEnd (Text.byteLength before') ('\x7b' :: (inside ++ '\x7d' :: rest')) =
      .ok (Text.byteLength (before' ++ '\x7b' :: inside)) := by
  have size : '\x7b'.utf8Size = 1 := by decide
  have stop (before : Text) : Text.byteLength (before ++ '\x7b' :: inside) =
      Text.byteLength before + 1 + Text.byteLength inside := by
    rw [Text.byteLength_append, Text.byteLength_cons, size, Nat.add_assoc]
  rw [blockEnd_brace, stop] at ends ⊢
  exact blockEndFrom_shift ends _ _ rest'

/-- Reading a text reaches its end. -/
def Complete (cs : Text) : Prop :=
  ∃ visible, Scans cs visible []

theorem Complete.behind_region {cs text rest : Text} (complete : Complete cs)
    (read : verbatim cs = .region text rest) : Complete rest := by
  obtain ⟨visible, scans⟩ := complete
  rcases scans.step with ⟨rfl, _⟩ | ⟨_, _, again, more⟩ | ⟨_, _, _, _, none, _⟩
  · cases read
  · rw [read] at again
    cases again
    exact ⟨_, more⟩
  · rw [read] at none
    cases none

theorem Complete.behind_char {c : Char} {rest : Text} (complete : Complete (c :: rest))
    (opens : OpensNone c rest.head?) : Complete rest := by
  have none := verbatim_eq_none_iff.2 opens
  obtain ⟨visible, scans⟩ := complete
  rcases scans.step with ⟨nil, _⟩ | ⟨_, _, region, _⟩ | ⟨_, _, _, same, _, _, more⟩
  · cases nil
  · rw [none] at region
    cases region
  · cases same
    exact ⟨_, more⟩

theorem Complete.behind {plain rest : Text} (complete : Complete (plain ++ rest))
    (neutral : ∀ c ∈ plain, Neutral c) : Complete rest := by
  induction plain with
  | nil => exact complete
  | cons c plain ih =>
      obtain ⟨first, more⟩ := List.forall_mem_cons.1 neutral
      exact ih (complete.behind_char (first.opensNone _)) more

/-- A region that ends with a blank is a comment up to the end of its line. -/
theorem IsRegion.before_blanks {next : Option Char} {text trail : Text}
    (region : IsRegion next (text ++ trail)) (some_ : trail ≠ [])
    (blanks : ∀ c ∈ trail, Text.isBlank c = true) : Complete text := by
  obtain ⟨last, ends⟩ : ∃ last, trail.getLast? = some last :=
    Option.isSome_iff_exists.1 (by simpa [List.getLast?_isSome] using some_)
  have blank := blanks last (List.mem_of_getLast? ends)
  have solid : ∀ c ∈ ['\'', '"', '\x60', '/'], (text ++ trail).getLast? ≠ some c := by
    rintro c member same
    rw [List.getLast?_append, ends] at same
    obtain rfl : last = c := by simpa using same
    simp only [List.mem_cons, List.not_mem_nil, or_false] at member
    rcases member with rfl | rfl | rfl | rfl <;> exact absurd blank (by decide)
  have dash : '-' ∉ trail := fun member => absurd (blanks _ member) (by decide)
  generalize whole : text ++ trail = cs at region solid
  cases region with
  | @quoted quote inside mark _ _ =>
      refine absurd ?_ (solid quote (List.mem_append_left ['/'] mark))
      rw [← List.cons_append, List.getLast?_concat]
  | block _ =>
      refine absurd ?_ (solid '/' (by decide))
      simp [List.getLast?_cons, List.getLast?_append]
  | @line inside oneLine _ =>
      match text, whole with
      | [], whole =>
          obtain rfl : trail = _ := whole
          exact absurd (List.mem_cons_self ..) dash
      | [_], whole =>
          obtain ⟨_, rfl⟩ := List.cons.inj whole
          exact absurd (List.mem_cons_self ..) dash
      | _ :: _ :: inside', whole =>
          simp only [List.cons_append, List.cons.injEq] at whole
          obtain ⟨rfl, rfl, rfl⟩ := whole
          have inner : '\n' ∉ inside' := fun member => oneLine (List.mem_append_left _ member)
          have comment : IsRegion ([] : Text).head? ('-' :: '-' :: inside') :=
            .line inner (.inl rfl)
          exact ⟨_, by simpa using Scans.region comment .done⟩

theorem Complete.before_blanks {cs trail : Text} (complete : Complete (cs ++ trail))
    (blanks : ∀ c ∈ trail, Text.isBlank c = true) : Complete cs := by
  obtain ⟨visible, scans⟩ := complete
  generalize whole : cs ++ trail = text, none : ([] : Text) = rest at scans
  induction scans generalizing cs with
  | done =>
      obtain ⟨rfl, _⟩ := List.append_eq_nil_iff.1 (whole.trans none.symm)
      exact ⟨[], .done⟩
  | @region text rest _ _ region _ ih =>
      rcases List.append_eq_append_iff.1 whole with ⟨beyond, rfl, rfl⟩ | ⟨cs', rfl, rfl⟩
      · by_cases nothing : beyond = []
        · subst nothing
          rw [List.append_nil] at region
          have alone : IsRegion ([] : Text).head? cs := region.before (.inl rfl)
          exact ⟨[], by simpa using Scans.region alone .done⟩
        · exact region.before_blanks nothing fun c member =>
            blanks c (List.mem_append_left _ member)
      · obtain ⟨visible, scans⟩ := ih rfl none
        refine ⟨visible, .region (region.before ?_) scans⟩
        cases cs' with
        | nil => exact .inl rfl
        | cons c cs' => exact .inr rfl
  | @char c rest _ _ opens _ ih =>
      cases cs with
      | nil => exact ⟨[], .done⟩
      | cons d cs =>
          obtain ⟨rfl, rfl⟩ := List.cons.inj whole
          obtain ⟨visible, scans⟩ := ih rfl none
          refine ⟨d :: visible, .char (opens.before ?_) scans⟩
          cases cs with
          | nil => exact .inl rfl
          | cons c cs => exact .inr rfl

/-- Trimming leaves no region open. -/
theorem Complete.trim {cs : Text} (complete : Complete cs) : Complete (Text.trim cs) := by
  obtain ⟨lead, trail, whole, leads, trails⟩ := Text.trim_cut cs
  rw [whole] at complete
  exact (complete.behind fun c member => neutral_of_isBlank (leads c member)).before_blanks trails

theorem IsInside.complete {inside : Text} (isInside : IsInside inside) : Complete inside := by
  have ends := isInside 0 []
  rw [blockEnd_brace, blockEndFrom_eq_ok_iff Nat.one_pos] at ends
  obtain ⟨read, rest, visible, whole, stop, scans, _, _⟩ := ends
  obtain ⟨rfl, closing⟩ := Text.append_inj_of_byteLength whole (Nat.add_left_cancel stop)
  obtain ⟨_, rfl⟩ := List.cons.inj closing
  obtain ⟨read, same, again⟩ := scans.cut
  obtain rfl := List.append_cancel_right same
  exact ⟨visible, by simpa using again [] (.inl rfl)⟩

theorem neutral_of_isIdentChar {c : Char} (name : Text.isIdentChar c = true) : Neutral c := by
  have marks : ['\'', '"', '\x60', '-', '/', '*'].any Text.isIdentChar = false := by decide
  exact fun member => List.any_eq_false.1 marks c member name

/-- Behind a piece no region is open either. -/
theorem Complete.behind_piece {n : Nat} {cs rest : Text} {piece : Piece} (complete : Complete cs)
    (read : firstPiece? n cs = .ok (some (piece, rest))) : Complete rest := by
  obtain ⟨rfl, leads⟩ := firstPiece?_eq_some_iff.1 read
  cases leads with
  | region whole ends => exact complete.behind_region (verbatim_before whole ends)
  | positional | cast | colon => exact complete.behind (by simp [Piece.raw, Neutral])
  | named _ all _ =>
      refine complete.behind (List.forall_mem_cons.2 ⟨by decide, fun c member => ?_⟩)
      exact neutral_of_isIdentChar (all c member)
  | other plain noLine noBlock =>
      refine complete.behind_char ⟨?_, noLine, noBlock⟩
      simp_all

theorem plainPiece?_eq_error {n : Nat} {cs : Text} {e : QueryError}
    (failed : plainPiece? n cs = .error e) : e = .numberedPlaceholder n := by
  unfold plainPiece? at failed
  split at failed
  · cases failed
  · split at failed <;> cases failed
    rfl
  · cases failed
  · dsimp only at failed
    split at failed <;> cases failed
  · cases failed

theorem Complete.firstPiece?_eq_error {n : Nat} {cs : Text} {e : QueryError}
    (complete : Complete cs) (failed : firstPiece? n cs = .error e) :
    e = .numberedPlaceholder n := by
  unfold firstPiece? at failed
  split at failed
  case h_1 construct unclosed =>
    obtain ⟨visible, scans⟩ := complete
    rcases scans.step with ⟨rfl, _⟩ | ⟨_, _, region, _⟩ | ⟨_, _, _, _, none, _⟩
    · cases unclosed
    · rw [unclosed] at region
      cases region
    · rw [unclosed] at none
      cases none
  case h_2 => cases failed
  case h_3 => exact plainPiece?_eq_error failed

/-- Where no region is left open, all that can be wrong is a placeholder with a number. -/
theorem Complete.pieces {n : Nat} {cs : Text} (complete : Complete cs) :
    (∃ ps, pieces n cs = .ok ps) ∨ ∃ at_, pieces n cs = .error (.numberedPlaceholder at_) := by
  fun_induction Query.pieces n cs with
  | case1 n cs e failed => exact .inr ⟨n, by rw [complete.firstPiece?_eq_error failed]⟩
  | case2 => exact .inl ⟨_, rfl⟩
  | case3 n cs piece rest first _ ih =>
      rcases ih (complete.behind_piece first) with ⟨ps, cut⟩ | ⟨at_, failed⟩
      · exact .inl ⟨piece :: ps, by rw [cut]; rfl⟩
      · exact .inr ⟨at_, by rw [failed]; rfl⟩

theorem Complete.parse {sql : String} (complete : Complete sql.toList) :
    (∃ q, parse sql = .ok q) ∨ ∃ at_, parse sql = .error (.numberedPlaceholder at_) := by
  unfold Query.parse
  rcases complete.pieces (n := 0) with ⟨ps, cut⟩ | ⟨at_, failed⟩
  · exact .inl ⟨_, by rw [cut]; rfl⟩
  · exact .inr ⟨at_, by rw [failed]; rfl⟩

end SqlUnits.Query
