import SqlUnits.Proofs.Edit.Splice
import SqlUnits.Proofs.Text.Offset
import SqlUnits.Proofs.Unit.Filling
import SqlUnits.Proofs.Unit.Literal
/-!
Reading a text again after edits in it. Between two places of a text stands what is to be read
there after the edits, in every text that begins behind them as the first one does.
-/

namespace SqlUnits.Scanner

/-- A settled text has its like before every text that begins as the rest of it. -/
theorem Follows.behind {rest rest' : Text} (t : Text) (settled : Settled (t ++ rest))
    (follows : Follows rest rest') : Follows (t ++ rest) (t ++ rest') := by
  cases t with
  | nil => exact follows
  | cons c t =>
      refine ⟨rfl, settled.1, fun slash => ?_⟩
      have single := settled.2 slash
      cases t with
      | nil =>
          show rest'.head? ≠ some '/'
          rw [follows.head]
          exact single
      | cons => exact single

/-- A character that stands neither for itself nor for a comment before a token. -/
def Solid (c : Char) : Prop :=
  Text.isBlank c = false ∧ c ≠ '/'

theorem settled_of_head {cs : Text} {c : Char} (ahead : cs.head? = some c) (solid : Solid c) :
    Settled cs := by
  obtain ⟨rest, rfl⟩ := List.head?_eq_some_iff.1 ahead
  exact ⟨solid.1, fun slash => absurd slash solid.2⟩

theorem solid_of_isIdentChar {c : Char} (letter : Text.isIdentChar c = true) : Solid c := by
  refine ⟨Text.isBlank_of_isIdentChar letter, ?_⟩
  rintro rfl
  exact absurd letter (by decide)

theorem solid_of_isNumberStart {x : Char} (starts : isNumberStart x = true) : Solid x := by
  rcases Bool.or_eq_true_iff.1 starts with minus | digit
  · rw [eq_of_beq minus]
    exact ⟨by decide, by decide⟩
  · exact solid_of_isIdentChar (Text.isIdentChar_of_isDigit digit)

/-- Two places on the same line, each in the text that its lines are of. -/
def SameLine (lines : LineIndex) (c : Cursor) (lines' : LineIndex) (c' : Cursor) : Prop :=
  ∃ before before', lines = .ofText (before ++ c.rest) ∧ c.offset = Text.byteLength before ∧
    lines' = .ofText (before' ++ c'.rest) ∧ c'.offset = Text.byteLength before' ∧
      Text.newlines before' = Text.newlines before

variable {lines lines' : LineIndex} {c d m c' d' : Cursor} {t t' : Text}

namespace SameLine

theorem line_eq (level : SameLine lines c lines' c') :
    lines'.line c'.offset = lines.line c.offset := by
  obtain ⟨before, before', rfl, here, rfl, here', same⟩ := level
  rw [here, here', LineIndex.line_ofText, LineIndex.line_ofText, same]

theorem along (level : SameLine lines c lines' c') (stretch : Stretch c t d)
    (stretch' : Stretch c' t' d') (same : Text.newlines t' = Text.newlines t) :
    SameLine lines d lines' d' := by
  obtain ⟨before, before', rfl, here, rfl, here', same'⟩ := level
  refine ⟨before ++ t, before' ++ t', ?_, ?_, ?_, ?_, ?_⟩
  · rw [stretch.rest, List.append_assoc]
  · rw [stretch.offset, here, Text.byteLength_append]
  · rw [stretch'.rest, List.append_assoc]
  · rw [stretch'.offset, here', Text.byteLength_append]
  · rw [Text.newlines_append, Text.newlines_append, same, same']

end SameLine

/-- What stands between two cursors, after the edits in it, wherever it is read on the same line
and before what begins in the same way. -/
def Becomes (lines : LineIndex) (c d : Cursor) (edits : List Edit)
    (P : LineIndex → Cursor → Cursor → Prop) : Prop :=
  ∃ t t', Stretch c t d ∧ Spliced c.offset edits t t' ∧ Text.newlines t' = Text.newlines t ∧
    ∀ lines' c' d', SameLine lines c lines' c' → Stretch c' t' d' → Follows d.rest d'.rest →
      Follows c.rest c'.rest ∧ P lines' c' d'

namespace Becomes

variable {edits more : List Edit} {P Q : LineIndex → Cursor → Cursor → Prop}

theorem imp (becomes : Becomes lines c d edits P)
    (implies : ∀ lines' c' d', SameLine lines c lines' c' → Follows c.rest c'.rest →
      P lines' c' d' → Q lines' c' d') : Becomes lines c d edits Q := by
  obtain ⟨t, t', stretch, spliced, newlines, read⟩ := becomes
  refine ⟨t, t', stretch, spliced, newlines, fun lines' c' d' level stretch' follows => ?_⟩
  obtain ⟨ahead, holds⟩ := read lines' c' d' level stretch' follows
  exact ⟨ahead, implies lines' c' d' level ahead holds⟩

/-- One part behind another. -/
theorem seq (first : Becomes lines c m edits P) (second : Becomes lines m d more Q) :
    Becomes lines c d (edits ++ more) fun lines' c' d' =>
      ∃ m', P lines' c' m' ∧ Q lines' m' d' := by
  obtain ⟨t, t', stretch, spliced, newlines, read⟩ := first
  obtain ⟨u, u', stretchU, splicedU, newlinesU, readU⟩ := second
  rw [stretch.offset] at splicedU
  refine ⟨t ++ u, t' ++ u', stretch.trans stretchU, spliced.append splicedU, ?_, ?_⟩
  · rw [Text.newlines_append, Text.newlines_append, newlines, newlinesU]
  · intro lines' c' d' level whole follows
    obtain ⟨left, right⟩ := whole.split
    obtain ⟨between, later⟩ := readU lines' _ d' (level.along stretch left newlines) right follows
    obtain ⟨ahead, holds⟩ := read lines' c' _ level left between
    exact ⟨ahead, _, holds, later⟩

/-- A stretch without edits. -/
theorem same (stretch : Stretch c t d) (settled : Settled c.rest) :
    Becomes lines c d [] fun _ c' d' => Stretch c' t d' ∧ Follows d.rest d'.rest := by
  refine ⟨t, t, stretch, .done, rfl, fun lines' c' d' _ stretch' follows => ⟨?_, stretch', follows⟩⟩
  rw [stretch.rest] at settled ⊢
  rw [stretch'.rest]
  exact follows.behind t settled

/-- A stretch that begins with a word, and of which a part behind this word is replaced. -/
theorem replaced (lines : LineIndex) {before after : Text} (old new : Text) {x : Char}
    (stretch : Stretch c (before ++ (old ++ after)) d) (ahead : before.head? = some x)
    (letter : Text.isIdentChar x = true) (newlines : Text.newlines new = Text.newlines old) :
    Becomes lines c d
      [⟨⟨c.offset + Text.byteLength before,
        c.offset + Text.byteLength before + Text.byteLength old⟩, String.ofList new⟩]
      fun _ c' d' => Stretch c' (before ++ (new ++ after)) d' ∧ Follows d.rest d'.rest := by
  have some : before ≠ [] := by
    rintro rfl
    cases ahead
  refine ⟨_, _, stretch, .edit some .done, by simp [newlines], ?_⟩
  intro lines' c' d' _ stretch' follows
  refine ⟨⟨?_, settled_of_head (c := x) ?_ (solid_of_isIdentChar letter)⟩, stretch', follows⟩
  · simp [stretch.rest, stretch'.rest, ahead]
  · simp [stretch'.rest, ahead]

/-- A place that is left as it is. -/
theorem here (settled : Settled c.rest) :
    Becomes lines c c [] fun _ c' d' => d' = c' ∧ Follows c.rest c'.rest := by
  refine (same (.refl c) settled).imp fun _ c' d' _ ahead holds => ?_
  exact ⟨holds.1.eq_of_nil, ahead⟩

/-- What stands between the first token of a text and its end becomes the whole of a text. -/
theorem whole {source : Text}
    (becomes : Becomes (.ofText source) (Cursor.mk 0 source).skip d edits P) (ended : d.rest = []) :
    ∃ text d', Spliced 0 edits source text ∧ P (.ofText text) (Cursor.mk 0 text).skip d' := by
  obtain ⟨t, t', inside, spliced, newlines, read⟩ := becomes
  obtain ⟨gap, stretch, gaps⟩ := (Cursor.mk 0 source).skip_gap
  generalize (Cursor.mk 0 source).skip = c at stretch gaps inside spliced read
  have texts : source = gap ++ t := by
    have texts := (stretch.trans inside).rest
    rwa [ended, List.append_nil] at texts
  have everywhere : Spliced 0 edits (gap ++ t) (gap ++ t') := by
    rw [stretch.offset] at spliced
    exact spliced.behind gap
  rw [← texts] at everywhere
  obtain ⟨first, second⟩ := Stretch.split (c := ⟨0, gap ++ t'⟩) (t := gap) (u := t')
    (e := ⟨0 + Text.byteLength (gap ++ t'), []⟩) ⟨by rw [List.append_nil], rfl⟩
  have level : SameLine (.ofText source) c (.ofText (gap ++ t'))
      ⟨0 + Text.byteLength gap, t' ++ []⟩ := by
    refine ⟨gap, gap, ?_, ?_, ?_, Nat.zero_add _, rfl⟩
    · rw [← stretch.rest]
    · rw [stretch.offset, Nat.zero_add]
    · rw [List.append_nil]
  obtain ⟨ahead, holds⟩ := read _ _ _ level second ⟨by rw [ended], trivial⟩
  refine ⟨gap ++ t', ⟨0 + Text.byteLength (gap ++ t'), []⟩, everywhere, ?_⟩
  rwa [(gaps.before ahead.settled ahead.nil.1).skip_eq first]

end Becomes

theorem Word.settled {w : Ident} (word : Word c w d) : Settled c.rest := by
  obtain ⟨x, ahead, letter, _⟩ := word.head
  exact settled_of_head ahead (solid_of_isIdentChar letter)

/-- A word, put together. -/
theorem word_of_stretch {chars gap : Text} (stretch : Stretch c (chars ++ gap) d)
    (name : IsName chars) (gaps : Gap gap d.rest)
    (stops : (gap ++ d.rest).head?.any Text.isIdentChar = false) :
    Word c ⟨String.ofList chars, ⟨c.offset, c.offset + Text.byteLength chars⟩⟩ d := by
  refine ⟨?_, ?_, _, stretch, gap, ?_, gaps, stops⟩ <;> simp only [String.toList_ofList]
  exact name

/-- A word without a gap behind it. -/
theorem word_of_tight {chars : Text} (stretch : Stretch c chars d) (name : IsName chars)
    (settled : Settled d.rest) (stops : d.rest.head?.any Text.isIdentChar = false) :
    Word c ⟨String.ofList chars, ⟨c.offset, c.offset + Text.byteLength chars⟩⟩ d := by
  rw [← List.append_nil chars] at stretch
  exact word_of_stretch stretch name (.nil settled) (by rwa [List.nil_append])

theorem Word.becomes {w : Ident} (word : Word c w d) :
    Becomes lines c d [] fun lines' c' d' =>
      ∃ w', Word c' w' d' ∧ w'.onLines lines' = w.onLines lines := by
  have settled := word.settled
  obtain ⟨name, span, t, stretch, token⟩ := word
  refine (Becomes.same stretch settled).imp fun lines' c' d' level _ ⟨stretch', follows⟩ => ?_
  refine ⟨⟨w.name, ⟨c'.offset, c'.offset + Text.byteLength w.name.toList⟩⟩,
    ⟨name, rfl, t, stretch', token.before follows⟩, ?_⟩
  simp only [Ident.onLines, level.line_eq, span]

theorem Sign.becomes {sign : Char} (solid : Solid sign) (reads : Sign sign c d) :
    Becomes lines c d [] fun _ c' d' => Sign sign c' d' := by
  have settled := settled_of_head reads.head solid
  obtain ⟨t, stretch, token⟩ := reads
  refine (Becomes.same stretch settled).imp fun lines' c' d' _ _ ⟨stretch', follows⟩ => ?_
  exact ⟨t, stretch', token.before follows⟩

section

variable {α β : Type} {Item : Cursor → α → Cursor → Prop}
  {filled : α → β} {edit? : α → Option Edit} {close : Char} (lines : LineIndex)
  (Item' : LineIndex → Cursor → α → Cursor → Prop) (place : LineIndex → α → β)

theorem filterMap_cons_eq (f : α → Option Edit) (a : α) (rest : List α) :
    (a :: rest).filterMap f = (f a).toList ++ rest.filterMap f := by
  cases made : f a <;> simp [made]

/-- A list whose items each become what is to be filled in. -/
theorem Items.becomes (solid : Solid close) {items : List α}
    (reads : Items close Item c items d)
    (each : ∀ c a d, a ∈ items → Item c a d → Becomes lines c d (edit? a).toList
      fun lines' c' d' => ∃ a', Item' lines' c' a' d' ∧ place lines' a' = filled a) :
    Becomes lines c d (items.filterMap edit?) fun lines' c' d' =>
      ∃ items', Items close (Item' lines') c' items' d' ∧
        items'.map (place lines') = items.map filled := by
  induction reads with
  | last one closes =>
      rw [filterMap_cons_eq]
      refine ((each _ _ _ (.head []) one).seq (closes.becomes solid)).imp ?_
      rintro lines' c' d' _ _ ⟨m', ⟨a', one', same⟩, closes'⟩
      exact ⟨[a'], .last one' closes', by simp [same]⟩
  | more one comma rest ih =>
      rw [filterMap_cons_eq]
      have first := each _ _ _ (.head _) one
      have second : Becomes lines _ _ [] _ := comma.becomes ⟨by decide, by decide⟩
      have third := ih fun c a d member => each c a d (.tail _ member)
      refine (first.seq (second.seq third)).imp ?_
      rintro lines' c' d' _ _ ⟨m', ⟨a', one', same⟩, n', comma', rest', reads', others⟩
      exact ⟨a' :: rest', .more one' comma' reads', by simp [same, others]⟩

theorem Listed.becomes (solid : Solid close) {items : List α}
    (reads : Listed close Item c items d)
    (each : ∀ c a d, a ∈ items → Item c a d → Becomes lines c d (edit? a).toList
      fun lines' c' d' => ∃ a', Item' lines' c' a' d' ∧ place lines' a' = filled a) :
    Becomes lines c d (items.filterMap edit?) fun lines' c' d' =>
      ∃ items', Listed close (Item' lines') c' items' d' ∧
        items'.map (place lines') = items.map filled := by
  rcases reads with ⟨rfl, closes⟩ | ⟨absent, reads⟩
  · refine (closes.becomes solid).imp fun lines' c' d' _ _ closes' => ?_
    exact ⟨[], .inl ⟨rfl, closes'⟩, rfl⟩
  · refine (reads.becomes lines Item' place solid each).imp ?_
    rintro lines' c' d' _ ahead ⟨items', reads', same⟩
    exact ⟨items', .inr ⟨ahead.head ▸ absent, reads'⟩, same⟩

/-- A list in whose items there is nothing to fill in. -/
theorem Listed.kept (solid : Solid close) {items : List α} (reads : Listed close Item c items d)
    (each : ∀ c a d, Item c a d → Becomes lines c d []
      fun lines' c' d' => ∃ a', Item' lines' c' a' d' ∧ place lines' a' = place lines a) :
    Becomes lines c d [] fun lines' c' d' =>
      ∃ items', Listed close (Item' lines') c' items' d' ∧
        items'.map (place lines') = items.map (place lines) := by
  have none : items.filterMap (fun _ => (none : Option Edit)) = [] :=
    List.filterMap_eq_nil_iff.2 fun _ _ => rfl
  rw [← none]
  exact reads.becomes lines Item' place solid fun c a d _ => each c a d

/-- A part that is announced, and in which there is nothing to fill in. -/
theorem Announced.becomes {sign : Char} (solid : Solid sign) (settled : Settled c.rest)
    {part : Option α} (reads : Announced sign Item c part d)
    (each : ∀ c a d, Item c a d → Becomes lines c d []
      fun lines' c' d' => ∃ a', Item' lines' c' a' d' ∧ place lines' a' = place lines a) :
    Becomes lines c d [] fun lines' c' d' =>
      ∃ part', Announced sign (Item' lines') c' part' d' ∧
        part'.map (place lines') = part.map (place lines) := by
  rcases reads with ⟨m, a, here, one, rfl⟩ | ⟨absent, rfl, rfl⟩
  · refine ((here.becomes solid).seq (each m a d one)).imp ?_
    rintro lines' c' d' _ _ ⟨m', here', a', one', same⟩
    exact ⟨some a', .inl ⟨m', a', here', one', rfl⟩, by simp [same]⟩
  · refine (Becomes.here settled).imp ?_
    rintro lines' c' d' _ _ ⟨rfl, ahead⟩
    exact ⟨none, .inr ⟨ahead.head ▸ absent, rfl, rfl⟩, rfl⟩

end

end SqlUnits.Scanner
