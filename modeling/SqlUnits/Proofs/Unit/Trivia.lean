import SqlUnits.Unit.Scanner
/-!
Texts between cursors, and the trivia between tokens. Whether a piece of trivia ends where it does
depends on what follows only as far as that is settled, and the end of the text or not.
-/

namespace SqlUnits.Scanner

theorem Cursor.exists_cons {c : Cursor} {x : Char} (ahead : c.rest.head? = some x) :
    ∃ offset rest, c = ⟨offset, x :: rest⟩ := by
  obtain ⟨rest, whole⟩ := List.head?_eq_some_iff.1 ahead
  exact ⟨c.offset, rest, by rw [← whole]⟩

/-- A text lies between two cursors. -/
structure Stretch (c : Cursor) (t : Text) (d : Cursor) : Prop where
  rest : c.rest = t ++ d.rest
  offset : d.offset = c.offset + Text.byteLength t

namespace Stretch

variable {c d e : Cursor} {t u : Text}

theorem refl (c : Cursor) : Stretch c [] c :=
  ⟨rfl, rfl⟩

theorem trans (first : Stretch c t d) (second : Stretch d u e) : Stretch c (t ++ u) e := by
  constructor
  · rw [first.rest, second.rest, List.append_assoc]
  · rw [second.offset, first.offset, Text.byteLength_append, Nat.add_assoc]

theorem length (stretch : Stretch c t d) : c.rest.length = t.length + d.rest.length := by
  rw [stretch.rest, List.length_append]

/-- A text that lies before a cursor is cut where its first part ends. -/
theorem split (whole : Stretch c (t ++ u) e) :
    Stretch c t ⟨c.offset + Text.byteLength t, u ++ e.rest⟩ ∧
      Stretch ⟨c.offset + Text.byteLength t, u ++ e.rest⟩ u e := by
  refine ⟨⟨?_, rfl⟩, ⟨rfl, ?_⟩⟩
  · rw [whole.rest, List.append_assoc]
  · rw [whole.offset, Text.byteLength_append, Nat.add_assoc]

theorem eq_of_nil (empty : Stretch c [] d) : d = c := by
  cases c
  cases d
  obtain ⟨rest, offset⟩ := empty
  simp at rest offset
  rw [rest, offset]

/-- What follows a text is settled by where it begins and the text itself. -/
theorem unique (first : Stretch c t d) (second : Stretch c t e) : d = e := by
  have rest := first.rest.symm.trans second.rest
  have offset := first.offset.trans second.offset.symm
  cases d
  cases e
  simp only [List.append_cancel_left_eq] at rest
  simp only at offset
  rw [rest, offset]

end Stretch

/-- Neither a blank nor a comment leads the text. -/
def Settled : Text → Prop
  | [] => True
  | c :: rest => Text.isBlank c = false ∧ (c = '/' → rest.head? ≠ some '/')

theorem skipTrivia_of_settled {cs : Text} (settled : Settled cs) (o : Nat) :
    skipTrivia false o cs = ⟨o, cs⟩ := by
  cases cs with
  | nil => rfl
  | cons c rest =>
      obtain ⟨solid, noComment⟩ := settled
      unfold skipTrivia
      have stays : ¬(c = '/' ∧ rest.head? = some '/') := fun both => noComment both.1 both.2
      simp [solid, stays]

theorem skipTrivia_shorter (inComment : Bool) (o : Nat) (cs : Text) :
    (skipTrivia inComment o cs).rest.length ≤ cs.length := by
  fun_induction skipTrivia inComment o cs with
  | case1 => exact Nat.le_refl _
  | case2 | case3 | case4 => exact Nat.le_succ_of_le ‹_›
  | case5 => exact Nat.le_refl _

/-- Inside a comment something is skipped, unless nothing is left. -/
theorem eq_nil_of_comment {o o' : Nat} {cs : Text} (skips : skipTrivia true o cs = ⟨o', cs⟩) :
    cs = [] := by
  cases cs with
  | nil => rfl
  | cons c rest =>
      have shorter := skipTrivia_shorter (c != '\n') (o + c.utf8Size) rest
      simp only [skipTrivia, if_true] at skips
      rw [skips] at shorter
      exact absurd shorter (Nat.not_succ_le_self _)

theorem settled_skipTrivia (inComment : Bool) (o : Nat) (cs : Text) :
    Settled (skipTrivia inComment o cs).rest := by
  fun_induction skipTrivia inComment o cs with
  | case1 => trivial
  | case2 | case3 | case4 => assumption
  | case5 o inComment c rest noComment solid stays =>
      refine ⟨by simpa using solid, ?_⟩
      rintro rfl follows
      simp [follows] at stays

theorem Cursor.settled_skip (c : Cursor) : Settled c.skip.rest :=
  settled_skipTrivia false c.offset c.rest

theorem Cursor.skip_of_settled {c : Cursor} (settled : Settled c.rest) : c.skip = c :=
  skipTrivia_of_settled settled c.offset

@[simp] theorem Cursor.skip_skip (c : Cursor) : c.skip.skip = c.skip :=
  skip_of_settled c.settled_skip

/-- Trivia, in front of a settled text. -/
structure Gap (gap rest : Text) : Prop where
  settled : Settled rest
  skips : ∀ o, skipTrivia false o (gap ++ rest) = ⟨o + Text.byteLength gap, rest⟩

namespace Gap

theorem nil {rest : Text} (settled : Settled rest) : Gap [] rest :=
  ⟨settled, skipTrivia_of_settled settled⟩

/-- The state of skipping goes through a gap in the same way before any settled text. -/
theorem skipTrivia_before {rest rest' : Text} (settled : Settled rest')
    (ended : rest = [] → rest' = []) : ∀ (gap : Text) (inComment : Bool) (o o' : Nat),
    skipTrivia inComment o (gap ++ rest) = ⟨o + Text.byteLength gap, rest⟩ →
      skipTrivia inComment o' (gap ++ rest') = ⟨o' + Text.byteLength gap, rest'⟩
  | [], false, o, o', _ => skipTrivia_of_settled settled o'
  | [], true, o, o', skips => by
      rw [ended (eq_nil_of_comment skips)]
      rfl
  | c :: gap, true, o, o', skips => by
      simp only [List.cons_append, skipTrivia, if_true] at skips ⊢
      rw [Text.byteLength_cons, ← Nat.add_assoc] at skips ⊢
      exact skipTrivia_before settled ended gap _ _ _ skips
  | c :: gap, false, o, o', skips => by
      simp only [List.cons_append, skipTrivia, Bool.false_eq_true, if_false] at skips ⊢
      rw [Text.byteLength_cons, ← Nat.add_assoc] at skips ⊢
      by_cases blank : Text.isBlank c = true
      · rw [if_pos blank] at skips ⊢
        exact skipTrivia_before settled ended gap _ _ _ skips
      · rw [if_neg blank] at skips ⊢
        by_cases comment : (c = '/' && (gap ++ rest).head? = some '/') = true
        · rw [if_pos comment] at skips
          simp only [Bool.and_eq_true, decide_eq_true_eq] at comment
          obtain ⟨rfl, slash⟩ := comment
          cases gap with
          | nil =>
              rw [List.nil_append] at skips slash
              rw [eq_nil_of_comment skips] at slash
              cases slash
          | cons d gap =>
              have same : d = '/' := Option.some.inj slash
              rw [if_pos (by simp [same])]
              exact skipTrivia_before settled ended (d :: gap) _ _ _ skips
        · rw [if_neg comment] at skips
          have same := congrArg (fun cursor => cursor.rest.length) skips
          simp at same
          omega

theorem before {gap rest rest' : Text} (gaps : Gap gap rest) (settled : Settled rest')
    (ended : rest = [] → rest' = []) : Gap gap rest' :=
  ⟨settled, fun o => skipTrivia_before settled ended gap false o o (gaps.skips o)⟩

theorem skip_eq {c d : Cursor} {gap : Text} (gaps : Gap gap d.rest) (stretch : Stretch c gap d) :
    c.skip = d := by
  unfold Cursor.skip
  rw [stretch.rest, gaps.skips, ← stretch.offset]

end Gap

theorem skipTrivia_stretch (inComment : Bool) (o : Nat) (cs : Text) :
    ∃ gap, Stretch ⟨o, cs⟩ gap (skipTrivia inComment o cs) := by
  fun_induction skipTrivia inComment o cs with
  | case1 => exact ⟨[], .refl _⟩
  | case2 o c rest ih | case3 o inComment c rest _ _ ih =>
      obtain ⟨gap, stretch⟩ := ih
      exact ⟨c :: gap, (⟨rfl, rfl⟩ : Stretch _ [c] _).trans stretch⟩
  | case4 o inComment c rest _ _ comment ih =>
      obtain ⟨gap, stretch⟩ := ih
      simp only [Bool.and_eq_true, decide_eq_true_eq] at comment
      obtain ⟨rfl, _⟩ := comment
      exact ⟨'/' :: gap, (⟨rfl, rfl⟩ : Stretch _ ['/'] _).trans stretch⟩
  | case5 => exact ⟨[], .refl _⟩

/-- What is skipped is a gap. -/
theorem Cursor.skip_gap (c : Cursor) :
    ∃ gap, Stretch c gap c.skip ∧ Gap gap c.skip.rest := by
  obtain ⟨gap, stretch⟩ := skipTrivia_stretch false c.offset c.rest
  refine ⟨gap, stretch, c.settled_skip, fun o => ?_⟩
  refine Gap.skipTrivia_before c.settled_skip id gap false c.offset o ?_
  have whole : c.rest = gap ++ c.skip.rest := stretch.rest
  rw [← whole, ← stretch.offset]
  rfl

/-- A settled text that begins as another one does. -/
structure Follows (rest rest' : Text) : Prop where
  head : rest'.head? = rest.head?
  settled : Settled rest'

namespace Follows

variable {rest rest' : Text}

theorem nil (follows : Follows rest rest') : rest = [] ↔ rest' = [] := by
  rw [← List.head?_eq_none_iff, ← follows.head, List.head?_eq_none_iff]

end Follows

/-- The characters of a token, before none of a class of characters, and the gap behind them. -/
def Token (stop : Char → Bool) (chars t rest : Text) : Prop :=
  ∃ gap, t = chars ++ gap ∧ Gap gap rest ∧ (gap ++ rest).head?.any stop = false

namespace Token

variable {stop : Char → Bool} {chars t rest rest' : Text}

theorem settled (token : Token stop chars t rest) : Settled rest := by
  obtain ⟨gap, _, gaps, _⟩ := token
  exact gaps.settled

theorem before (token : Token stop chars t rest) (follows : Follows rest rest') :
    Token stop chars t rest' := by
  obtain ⟨gap, rfl, gaps, stops⟩ := token
  refine ⟨gap, rfl, gaps.before follows.settled follows.nil.1, ?_⟩
  cases gap with
  | nil =>
      rw [List.nil_append] at stops ⊢
      rwa [follows.head]
  | cons c gap => exact stops

/-- Where a gap must stand behind a token, any settled text may follow the gap. -/
theorem before_spaced (token : Token stop chars t rest) (spaced : rest.head?.any stop = true)
    (settled : Settled rest') : Token stop chars t rest' := by
  obtain ⟨gap, rfl, gaps, stops⟩ := token
  cases gap with
  | nil =>
      rw [List.nil_append, spaced] at stops
      cases stops
  | cons c gap =>
      refine ⟨c :: gap, rfl, gaps.before settled ?_, stops⟩
      rintro rfl
      cases spaced

end Token

end SqlUnits.Scanner
