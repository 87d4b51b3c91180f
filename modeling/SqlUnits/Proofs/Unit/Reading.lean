import SqlUnits.Proofs.Text.Run
import SqlUnits.Proofs.Unit.Trivia
/-!
Readers as relations between the places of tokens. A reader reaches a place when it succeeds and
the next token is there; readers that begin with a token do not mind trivia before it.
-/

namespace SqlUnits.Scanner

theorem bind_eq_ok {read : Scan α} {next : α → Scan β} {c e : Cursor} {b : β} :
    (read >>= next) c = .ok (b, e) ↔
      ∃ a m, read c = .ok (a, m) ∧ next a m = .ok (b, e) := by
  change (read c >>= fun (a, m) => next a m) = _ ↔ _
  cases read c with
  | error fault => simp [bind, Except.bind]
  | ok pair =>
      obtain ⟨a, m⟩ := pair
      constructor
      · exact fun second => ⟨a, m, rfl, second⟩
      · rintro ⟨_, _, same, second⟩
        cases same
        exact second

theorem bind_of_ok {read : Scan α} {next : α → Scan β} {c m : Cursor} {a : α}
    (succeeds : read c = .ok (a, m)) : (read >>= next) c = next a m := by
  change (read c >>= fun pair => next pair.1 pair.2) = _
  rw [succeeds]
  rfl

theorem bind_get (f : Cursor → Scan α) (c : Cursor) : (get >>= f) c = f c c :=
  rfl

theorem bind_set (m : Cursor) (f : PUnit → Scan α) (c : Cursor) : (set m >>= f) c = f ⟨⟩ m :=
  rfl

/-- A reader succeeds at a cursor, and the next token is at `d`. -/
def Reaches (read : Scan α) (c : Cursor) (a : α) (d : Cursor) : Prop :=
  ∃ e, read c = .ok (a, e) ∧ e.skip = d

/-- Trivia ahead makes no difference to a reader. -/
def Lenient (read : Scan α) : Prop :=
  ∀ c a d, Reaches read c a d ↔ Reaches read c.skip a d

theorem Reaches.settled {read : Scan α} {c d : Cursor} {a : α} (reaches : Reaches read c a d) :
    Settled d.rest := by
  obtain ⟨e, _, rfl⟩ := reaches
  exact e.settled_skip

theorem Reaches.skip {read : Scan α} {c d : Cursor} {a : α} (reaches : Reaches read c a d) :
    d.skip = d :=
  Cursor.skip_of_settled reaches.settled

theorem reaches_bind {read : Scan α} {next : α → Scan β} (lenient : ∀ a, Lenient (next a))
    {c d : Cursor} {b : β} :
    Reaches (read >>= next) c b d ↔ ∃ a m, Reaches read c a m ∧ Reaches (next a) m b d := by
  constructor
  · rintro ⟨e, succeeds, there⟩
    obtain ⟨a, m, first, second⟩ := bind_eq_ok.1 succeeds
    exact ⟨a, m.skip, ⟨m, first, rfl⟩, (lenient a m b d).1 ⟨e, second, there⟩⟩
  · rintro ⟨a, m, ⟨n, first, rfl⟩, second⟩
    obtain ⟨e, second, there⟩ := (lenient a n b d).2 second
    exact ⟨e, bind_eq_ok.2 ⟨a, n, first, second⟩, there⟩

namespace Lenient

variable {read : Scan α} {next : α → Scan β}

/-- A reader that skips trivia first. -/
theorem ofSkip (skips : ∀ c, read c = read c.skip) : Lenient read := by
  intro c a d
  unfold Reaches
  rw [skips]

theorem bind (first : Lenient read) (second : ∀ a, Lenient (next a)) :
    Lenient (read >>= next) := by
  intro c b d
  rw [reaches_bind second, reaches_bind second]
  refine exists_congr fun a => exists_congr fun m => ?_
  rw [first c a m]

theorem pure (a : α) : Lenient (pure a) := by
  intro c b d
  constructor
  · rintro ⟨e, succeeds, there⟩
    cases succeeds
    exact ⟨c.skip, rfl, c.skip_skip.trans there⟩
  · rintro ⟨e, succeeds, there⟩
    cases succeeds
    exact ⟨c, rfl, c.skip_skip.symm.trans there⟩

theorem failAt (offset : Nat) (problem : ScanProblem) :
    Lenient (failAt offset problem : Scan α) := by
  intro c a d
  constructor <;> rintro ⟨e, succeeds, _⟩ <;> cases succeeds

theorem ite {p : Prop} [Decidable p] {read' : Scan α} (yes : Lenient read)
    (no : Lenient read') : Lenient (if p then read else read') := by
  split <;> assumption

end Lenient

variable {c d : Cursor}

theorem reaches_pure {a b : α} : Reaches (pure a) c b d ↔ b = a ∧ d = c.skip := by
  constructor
  · rintro ⟨e, succeeds, rfl⟩
    cases succeeds
    exact ⟨rfl, rfl⟩
  · rintro ⟨rfl, rfl⟩
    exact ⟨c, rfl, rfl⟩

/-- A reader that makes something of what another one reads. -/
theorem reaches_bind_pure {read : Scan α} {f : α → β} {b : β} :
    Reaches (read >>= fun a => pure (f a)) c b d ↔ ∃ a, Reaches read c a d ∧ b = f a := by
  rw [reaches_bind fun _ => .pure _]
  constructor
  · rintro ⟨a, m, first, second⟩
    obtain ⟨rfl, rfl⟩ := reaches_pure.1 second
    exact ⟨a, first.skip.symm ▸ first, rfl⟩
  · rintro ⟨a, first, rfl⟩
    exact ⟨a, d, first, reaches_pure.2 ⟨rfl, first.skip.symm⟩⟩

theorem reaches_map {read : Scan α} {f : α → β} {b : β} :
    Reaches (f <$> read) c b d ↔ ∃ a, Reaches read c a d ∧ b = f a := by
  rw [map_eq_pure_bind, reaches_bind_pure]

theorem reaches_get {f : Cursor → Scan α} {a : α} :
    Reaches (get >>= f) c a d ↔ Reaches (f c) c a d :=
  Iff.rfl

theorem not_reaches_failAt {offset : Nat} {problem : ScanProblem} {a : α} :
    ¬Reaches (failAt offset problem) c a d := by
  rintro ⟨e, succeeds, _⟩
  cases succeeds

theorem not_reaches_unexpected {what : String} {a : α} : ¬Reaches (unexpected what) c a d := by
  rintro ⟨e, succeeds, _⟩
  cases succeeds

theorem lenient_unexpected (what : String) : Lenient (unexpected what : Scan α) :=
  fun _ _ _ => iff_of_false not_reaches_unexpected not_reaches_unexpected

theorem reaches_ite {p : Prop} [Decidable p] {yes no : Scan α} {a : α} :
    Reaches (if p then yes else no) c a d ↔ p ∧ Reaches yes c a d ∨ ¬p ∧ Reaches no c a d := by
  by_cases holds : p <;> simp [holds]

/-- A single character that is a token. -/
def Sign (sign : Char) (c d : Cursor) : Prop :=
  ∃ t, Stretch c t d ∧ Token (fun _ => false) [sign] t d.rest

theorem sign_iff {sign : Char} :
    Sign sign c d ↔ ∃ gap, Stretch c (sign :: gap) d ∧ Gap gap d.rest := by
  constructor
  · rintro ⟨t, stretch, gap, rfl, gaps, _⟩
    exact ⟨gap, stretch, gaps⟩
  · rintro ⟨gap, stretch, gaps⟩
    exact ⟨sign :: gap, stretch, gap, rfl, gaps, by simp⟩

theorem Sign.ends {sign : Char} (reads : Sign sign c d) : d.skip = d := by
  obtain ⟨gap, _, gaps⟩ := sign_iff.1 reads
  exact Cursor.skip_of_settled gaps.settled

theorem Sign.head {sign : Char} (reads : Sign sign c d) : c.rest.head? = some sign := by
  obtain ⟨gap, stretch, _⟩ := sign_iff.1 reads
  rw [stretch.rest]
  rfl

theorem peek_eq (c : Cursor) : peek c = .ok (c.skip.rest.head?, c.skip) :=
  rfl

theorem eat_eq (sign : Char) (c : Cursor) :
    eat sign c =
      if c.skip.rest.head? = some sign then
        .ok (true, ⟨c.skip.offset + sign.utf8Size, c.skip.rest.drop 1⟩)
      else .ok (false, c.skip) := by
  unfold eat
  rw [bind_of_ok (peek_eq c)]
  cases c.skip.rest.head? with
  | none => rfl
  | some found =>
      by_cases same : found = sign
      · simp only [same, if_true]
        rfl
      · simp only [same, Option.some.injEq, if_false]
        rfl

theorem lenient_eat (sign : Char) : Lenient (eat sign) :=
  .ofSkip fun c => by rw [eat_eq, eat_eq, c.skip_skip]

theorem reaches_eat {sign : Char} {there : Bool} : Reaches (eat sign) c there d ↔
    there = true ∧ Sign sign c.skip d ∨
      there = false ∧ c.skip.rest.head? ≠ some sign ∧ d = c.skip := by
  unfold Reaches
  rw [eat_eq]
  by_cases ahead : c.skip.rest.head? = some sign
  · obtain ⟨rest, whole⟩ := List.head?_eq_some_iff.1 ahead
    let e : Cursor := ⟨c.skip.offset + sign.utf8Size, rest⟩
    have one : Stretch c.skip [sign] e := ⟨whole, rfl⟩
    rw [if_pos ahead, whole, List.drop_one, List.tail_cons, List.head?_cons]
    constructor
    · rintro ⟨_, same, rfl⟩
      cases same
      obtain ⟨gap, stretch, gaps⟩ := e.skip_gap
      exact .inl ⟨rfl, sign_iff.2 ⟨gap, one.trans stretch, gaps⟩⟩
    · rintro (⟨rfl, reads⟩ | ⟨_, absent, _⟩)
      · obtain ⟨gap, stretch, gaps⟩ := sign_iff.1 reads
        obtain ⟨first, second⟩ := Stretch.split (t := [sign]) stretch
        refine ⟨e, rfl, ?_⟩
        rw [one.unique first]
        exact gaps.skip_eq second
      · exact absurd rfl absent
  · rw [if_neg ahead]
    constructor
    · rintro ⟨e, same, rfl⟩
      cases same
      exact .inr ⟨rfl, ahead, c.skip_skip⟩
    · rintro (⟨_, reads⟩ | ⟨rfl, _, rfl⟩)
      · exact absurd reads.head ahead
      · exact ⟨c.skip, rfl, c.skip_skip⟩

theorem lenient_eat_ite (sign : Char) {yes no : Scan α} (lenientYes : Lenient yes)
    (lenientNo : Lenient no) : Lenient (eat sign >>= fun b => if b = true then yes else no) :=
  (lenient_eat sign).bind fun _ => .ite lenientYes lenientNo

/-- A choice by the next character. -/
theorem reaches_eat_ite {sign : Char} {yes no : Scan α} {a : α} (lenientYes : Lenient yes)
    (lenientNo : Lenient no) :
    Reaches (eat sign >>= fun b => if b = true then yes else no) c a d ↔
      (∃ m, Sign sign c.skip m ∧ Reaches yes m a d) ∨
        c.skip.rest.head? ≠ some sign ∧ Reaches no c a d := by
  rw [reaches_bind fun _ => .ite lenientYes lenientNo]
  constructor
  · rintro ⟨there, m, eaten, rest⟩
    rcases reaches_eat.1 eaten with ⟨rfl, reads⟩ | ⟨rfl, absent, rfl⟩
    · exact .inl ⟨m, reads, rest⟩
    · exact .inr ⟨absent, (lenientNo c a d).2 rest⟩
  · rintro (⟨m, reads, rest⟩ | ⟨absent, rest⟩)
    · exact ⟨true, m, reaches_eat.2 (.inl ⟨rfl, reads⟩), rest⟩
    · exact ⟨false, c.skip, reaches_eat.2 (.inr ⟨rfl, absent, rfl⟩), (lenientNo c a d).1 rest⟩

theorem lenient_expect (sign : Char) : Lenient (expect sign) :=
  (lenient_eat sign).bind fun _ => .ite (.pure _) (lenient_unexpected _)

theorem reaches_expect {sign : Char} {u : Unit} :
    Reaches (expect sign) c u d ↔ Sign sign c.skip d := by
  unfold expect
  rw [reaches_eat_ite (.pure _) (lenient_unexpected _)]
  constructor
  · rintro (⟨m, reads, rest⟩ | ⟨_, fails⟩)
    · obtain ⟨_, rfl⟩ := reaches_pure.1 rest
      rwa [reads.ends]
    · exact absurd fails not_reaches_unexpected
  · intro reads
    exact .inl ⟨d, reads, reaches_pure.2 ⟨rfl, reads.ends.symm⟩⟩

/-- The characters of an identifier. -/
structure IsName (chars : Text) : Prop where
  nonempty : chars ≠ []
  all : ∀ c ∈ chars, Text.isIdentChar c = true
  start : chars.head?.any Text.isDigit = false

theorem isName_iff {chars : Text} :
    IsName chars ↔
      chars ≠ [] ∧ chars.all Text.isIdentChar = true ∧ chars.head?.any Text.isDigit = false := by
  rw [List.all_eq_true]
  exact ⟨fun name => ⟨name.nonempty, name.all, name.start⟩,
    fun ⟨nonempty, all, start⟩ => ⟨nonempty, all, start⟩⟩

instance (chars : Text) : Decidable (IsName chars) :=
  decidable_of_iff _ isName_iff.symm

structure Word (c : Cursor) (w : Ident) (d : Cursor) : Prop where
  name : IsName w.name.toList
  span : w.span = ⟨c.offset, c.offset + Text.byteLength w.name.toList⟩
  token : ∃ t, Stretch c t d ∧ Token Text.isIdentChar w.name.toList t d.rest

theorem Word.ends {w : Ident} (word : Word c w d) : d.skip = d := by
  obtain ⟨_, _, t, _, token⟩ := word
  exact Cursor.skip_of_settled token.settled

theorem Word.shorter {w : Ident} (word : Word c w d) : d.rest.length < c.rest.length := by
  obtain ⟨name, _, t, stretch, gap, rfl, _, _⟩ := word
  have some := List.length_pos_iff.2 name.nonempty
  have whole := stretch.length
  rw [List.length_append] at whole
  omega

theorem Word.head {w : Ident} (word : Word c w d) :
    ∃ x, c.rest.head? = some x ∧ Text.isIdentChar x = true ∧ Text.isDigit x = false := by
  obtain ⟨name, _, t, stretch, gap, rfl, _, _⟩ := word
  rw [stretch.rest]
  cases chars : w.name.toList with
  | nil => exact absurd chars name.nonempty
  | cons x rest =>
      refine ⟨x, rfl, name.all x (by simp [chars]), ?_⟩
      simpa [chars] using name.start

theorem ident_eq (what : String) (c : Cursor) :
    ident what c =
      let run := c.skip.rest.takeWhile Text.isIdentChar
      if run.isEmpty || run.head?.any Text.isDigit then unexpected what c.skip
      else .ok (⟨String.ofList run, ⟨c.skip.offset, c.skip.offset + Text.byteLength run⟩⟩,
        ⟨c.skip.offset + Text.byteLength run, c.skip.rest.drop run.length⟩) := by
  unfold ident
  change (ite _ _ _ : Scan Ident) c.skip = ite _ _ _
  split <;> rfl

/-- Reads an identifier, and stands right behind it. -/
theorem ident_eq_ok {what : String} {w : Ident} {e : Cursor} :
    ident what c = .ok (w, e) ↔
      IsName w.name.toList ∧ Stretch c.skip w.name.toList e ∧
        w.span = ⟨c.skip.offset, e.offset⟩ ∧ e.rest.head?.any Text.isIdentChar = false := by
  rw [ident_eq]
  have cut := List.takeWhile_append_dropWhile (p := Text.isIdentChar) (l := c.skip.rest)
  have all := Text.forall_mem_takeWhile Text.isIdentChar c.skip.rest
  have stops := Text.head?_dropWhile Text.isIdentChar c.skip.rest
  constructor
  · intro read
    generalize c.skip.rest.takeWhile Text.isIdentChar = run at read cut all
    generalize c.skip.rest.dropWhile Text.isIdentChar = rest at cut stops
    simp only at read
    split at read
    · cases read
    · rename_i proper
      simp only [Bool.or_eq_true, not_or, List.isEmpty_iff, Bool.not_eq_true] at proper
      simp only [← cut, List.drop_left, Except.ok.injEq, Prod.mk.injEq] at read
      obtain ⟨rfl, rfl⟩ := read
      rw [String.toList_ofList]
      exact ⟨⟨proper.1, all, proper.2⟩, ⟨cut.symm, rfl⟩, rfl, stops⟩
  · rintro ⟨name, stretch, span, stops⟩
    rw [stretch.rest, Text.takeWhile_run name.all stops]
    have proper : ¬(w.name.toList.isEmpty || w.name.toList.head?.any Text.isDigit) = true := by
      simp [name.nonempty, name.start]
    simp only [if_neg proper, List.drop_left, String.ofList_toList, ← stretch.offset, ← span]

theorem lenient_ident (what : String) : Lenient (ident what) := by
  intro c a d
  unfold Reaches
  simp only [ident_eq_ok, c.skip_skip]

theorem reaches_ident {what : String} {w : Ident} :
    Reaches (ident what) c w d ↔ Word c.skip w d := by
  constructor
  · rintro ⟨e, read, rfl⟩
    obtain ⟨name, stretch, span, stops⟩ := ident_eq_ok.1 read
    obtain ⟨gap, trivia, gaps⟩ := e.skip_gap
    refine ⟨name, by rw [span, stretch.offset], _, stretch.trans trivia, gap, rfl, gaps, ?_⟩
    rwa [← trivia.rest]
  · rintro ⟨name, span, t, stretch, gap, rfl, gaps, stops⟩
    obtain ⟨first, second⟩ := stretch.split
    exact ⟨_, ident_eq_ok.2 ⟨name, first, span, stops⟩, gaps.skip_eq second⟩

/-- Items between commas, and the closing bracket. -/
inductive Items (close : Char) (Item : Cursor → α → Cursor → Prop) :
    Cursor → List α → Cursor → Prop
  | last {c m d : Cursor} {a : α} : Item c a m → Sign close m d → Items close Item c [a] d
  | more {c m n d : Cursor} {a : α} {rest : List α} :
      Item c a m → Sign ',' m n → Items close Item n rest d → Items close Item c (a :: rest) d

/-- A list behind its opening bracket; a closing bracket ahead makes it empty. -/
def Listed (close : Char) (Item : Cursor → α → Cursor → Prop) (c : Cursor) (items : List α)
    (d : Cursor) : Prop :=
  items = [] ∧ Sign close c d ∨ c.rest.head? ≠ some close ∧ Items close Item c items d

theorem Sign.shorter {sign : Char} (reads : Sign sign c d) : d.rest.length < c.rest.length := by
  obtain ⟨gap, stretch, _⟩ := sign_iff.1 reads
  rw [stretch.rest, List.cons_append, List.length_cons, List.length_append]
  omega

section

variable {close : Char} {item : Scan α} {Item : Cursor → α → Cursor → Prop}

theorem Items.count (shrinks : ∀ c a d, Item c a d → d.rest.length ≤ c.rest.length)
    {items : List α} (reads : Items close Item c items d) :
    items.length + d.rest.length ≤ c.rest.length := by
  induction reads with
  | last one closes =>
      have first := shrinks _ _ _ one
      have second := closes.shorter
      simp only [List.length_singleton]
      omega
  | more one comma _ ih =>
      have first := shrinks _ _ _ one
      have second := comma.shorter
      simp only [List.length_cons]
      omega

theorem Listed.shrinks (shrinks : ∀ c a d, Item c a d → d.rest.length ≤ c.rest.length)
    {items : List α} (reads : Listed close Item c items d) : d.rest.length ≤ c.rest.length := by
  rcases reads with ⟨_, closes⟩ | ⟨_, reads⟩
  · exact closes.shorter.le
  · have count := reads.count shrinks
    omega

theorem Items.ends {items : List α} (reads : Items close Item c items d) : d.skip = d := by
  induction reads with
  | last _ closes => exact closes.ends
  | more _ _ _ ih => exact ih

theorem Listed.ends {items : List α} (reads : Listed close Item c items d) : d.skip = d := by
  rcases reads with ⟨_, closes⟩ | ⟨_, reads⟩
  · exact closes.ends
  · exact reads.ends

theorem lenient_of_reaches (reaches : ∀ c a d, Reaches item c a d ↔ Item c.skip a d) :
    Lenient item := by
  intro c a d
  rw [reaches, reaches, c.skip_skip]

theorem lenient_itemsUpTo (close : Char) (lenient : Lenient item) (n : Nat) :
    Lenient (itemsUpTo close item n) := by
  induction n with
  | zero => exact fun _ _ _ => by constructor <;> rintro ⟨_, fails, _⟩ <;> cases fails
  | succ n ih =>
      refine lenient.bind fun first => lenient_eat_ite ',' ?_ ?_
      · exact ih.bind fun _ => .pure _
      · exact (lenient_expect close).bind fun _ => .pure _

theorem reaches_itemsUpTo (other : close ≠ ',')
    (reaches : ∀ c a d, Reaches item c a d ↔ Item c.skip a d) (n : Nat) {items : List α} :
    Reaches (itemsUpTo close item n) c items d ↔
      Items close Item c.skip items d ∧ items.length ≤ n := by
  have lenient := lenient_of_reaches reaches
  induction n generalizing c items d with
  | zero =>
      refine iff_of_false (by rintro ⟨_, fails, _⟩; cases fails) ?_
      rintro ⟨reads, none⟩
      cases reads <;> simp at none
  | succ n ih =>
      have more (first : α) :=
        (lenient_itemsUpTo close lenient n).bind fun rest => .pure (first :: rest)
      have last (first : α) := (lenient_expect close).bind fun _ => .pure [first]
      unfold itemsUpTo
      rw [reaches_bind fun first => lenient_eat_ite ',' (more first) (last first)]
      simp only [reaches_eat_ite (more _) (last _), reaches_bind_pure, ih, reaches_expect]
      constructor
      · rintro ⟨a, m, one, ⟨m', comma, rest, ⟨reads, few⟩, rfl⟩ | ⟨_, _, closes, rfl⟩⟩
        · rw [one.skip] at comma
          refine ⟨.more ((reaches _ _ _).1 one) comma ?_, Nat.succ_le_succ few⟩
          rwa [comma.ends] at reads
        · rw [one.skip] at closes
          exact ⟨.last ((reaches _ _ _).1 one) closes, by simp⟩
      · rintro ⟨reads, few⟩
        cases reads with
        | last one closes =>
            have one := (reaches _ _ _).2 one
            rw [← one.skip] at closes
            refine ⟨_, _, one, .inr ⟨?_, ⟨⟩, closes, rfl⟩⟩
            rw [closes.head]
            exact fun same => other (Option.some.inj same)
        | more one comma rest =>
            have one := (reaches _ _ _).2 one
            rw [← comma.ends] at rest
            rw [← one.skip] at comma
            exact ⟨_, _, one, .inl ⟨_, comma, _, ⟨rest, Nat.le_of_succ_le_succ few⟩, rfl⟩⟩

theorem list_eq (close : Char) (item : Scan α) (c : Cursor) :
    list close item c =
      (eat close >>= fun b =>
        if b = true then pure [] else itemsUpTo close item (c.skip.rest.length + 1)) c := by
  unfold list
  change (eat close c >>= _) = (eat close c >>= _)
  rw [eat_eq]
  split <;> rfl

/-- The length of the text ahead bounds the items of a list well. -/
theorem reaches_list (other : close ≠ ',')
    (reaches : ∀ c a d, Reaches item c a d ↔ Item c.skip a d)
    (shrinks : ∀ c a d, Item c a d → d.rest.length ≤ c.rest.length) {items : List α} :
    Reaches (list close item) c items d ↔ Listed close Item c.skip items d := by
  unfold Reaches
  rw [list_eq]
  change Reaches _ c items d ↔ _
  rw [reaches_eat_ite (.pure _) (lenient_itemsUpTo close (lenient_of_reaches reaches) _),
    reaches_itemsUpTo other reaches]
  constructor
  · rintro (⟨m, closes, rest⟩ | ⟨absent, reads, _⟩)
    · obtain ⟨rfl, rfl⟩ := reaches_pure.1 rest
      exact .inl ⟨rfl, closes.ends.symm ▸ closes⟩
    · exact .inr ⟨absent, reads⟩
  · rintro (⟨rfl, closes⟩ | ⟨absent, reads⟩)
    · exact .inl ⟨d, closes, reaches_pure.2 ⟨rfl, closes.ends.symm⟩⟩
    · have count := reads.count shrinks
      exact .inr ⟨absent, reads, by omega⟩

end

/-- A part that a sign announces. -/
def Announced (sign : Char) (Item : Cursor → α → Cursor → Prop) (c : Cursor) (part : Option α)
    (d : Cursor) : Prop :=
  (∃ m a, Sign sign c m ∧ Item m a d ∧ part = some a) ∨
    c.rest.head? ≠ some sign ∧ part = none ∧ d = c

section

variable {item : Scan α} {Item : Cursor → α → Cursor → Prop} {next : Option α → Scan β}

theorem lenient_announced (sign : Char)
    (reaches : ∀ c a d, Reaches item c a d ↔ Item c.skip a d)
    (lenient : ∀ part, Lenient (next part)) :
    Lenient (eat sign >>= fun b =>
      if b = true then some <$> item >>= next else pure none >>= next) := by
  refine lenient_eat_ite sign (Lenient.bind ?_ lenient) ((Lenient.pure _).bind lenient)
  intro c a d
  simp only [reaches_map, reaches, c.skip_skip]

theorem Announced.shrinks {sign : Char} {part : Option α}
    (shrinks : ∀ c a d, Item c a d → d.rest.length ≤ c.rest.length)
    (reads : Announced sign Item c part d) : d.rest.length ≤ c.rest.length := by
  rcases reads with ⟨m, a, here, one, _⟩ | ⟨_, _, rfl⟩
  · exact (shrinks m a d one).trans here.shorter.le
  · exact le_rfl

theorem Announced.ends {sign : Char} {part : Option α} (ends : ∀ c a d, Item c a d → d.skip = d)
    (settled : c.skip = c) (reads : Announced sign Item c part d) : d.skip = d := by
  rcases reads with ⟨m, a, _, one, _⟩ | ⟨_, _, rfl⟩
  · exact ends m a d one
  · exact settled

theorem reaches_announced {sign : Char}
    (reaches : ∀ c a d, Reaches item c a d ↔ Item c.skip a d)
    (lenient : ∀ part, Lenient (next part)) {b : β} :
    Reaches (eat sign >>= fun b =>
        if b = true then some <$> item >>= next else pure none >>= next) c b d ↔
      ∃ part m, Announced sign Item c.skip part m ∧ Reaches (next part) m b d := by
  have lenientItem : Lenient (some <$> item) := by
    intro c a d
    simp only [reaches_map, reaches, c.skip_skip]
  rw [reaches_eat_ite (lenientItem.bind lenient) ((Lenient.pure _).bind lenient)]
  simp only [reaches_bind lenient, reaches_map, reaches, reaches_pure]
  constructor
  · rintro (⟨m, here, part, n, ⟨a, one, rfl⟩, rest⟩ | ⟨absent, part, n, ⟨rfl, rfl⟩, rest⟩)
    · rw [here.ends] at one
      exact ⟨some a, n, .inl ⟨m, a, here, one, rfl⟩, rest⟩
    · exact ⟨none, c.skip, .inr ⟨absent, rfl, rfl⟩, rest⟩
  · rintro ⟨part, n, ⟨m, a, here, one, rfl⟩ | ⟨absent, rfl, rfl⟩, rest⟩
    · exact .inl ⟨m, here, some a, n, ⟨a, here.ends.symm ▸ one, rfl⟩, rest⟩
    · exact .inr ⟨absent, none, c.skip, ⟨rfl, rfl⟩, rest⟩

end

end SqlUnits.Scanner
