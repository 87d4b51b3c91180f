import SqlUnits.Text.Span
/-!
Byte offsets and their lines. The boundaries of a text are the byte lengths of its beginnings, and
the characters between two of them can be cut out; the line of an offset is one more than the
newlines before it, and its column one more than its distance from where the line starts.
-/

namespace SqlUnits

namespace Text

theorem splitAtByte?_append (before after : Text) :
    splitAtByte? (byteLength before) (before ++ after) = some (before, after) := by
  induction before with
  | nil => simp [splitAtByte?]
  | cons c before ih =>
      have positive := c.utf8Size_pos
      obtain ⟨n, size⟩ : ∃ n, byteLength (c :: before) = n + 1 :=
        ⟨c.utf8Size + byteLength before - 1, by simp only [byteLength_cons]; omega⟩
      have enough : c.utf8Size ≤ n + 1 := by
        rw [← size, byteLength_cons]
        omega
      have rest : n + 1 - c.utf8Size = byteLength before := by
        rw [← size, byteLength_cons]
        omega
      rw [size, List.cons_append, splitAtByte?, if_pos enough, rest, ih]
      rfl

/-- One text is cut in one way after so many bytes. -/
theorem append_inj_of_byteLength {before after before' after' : Text}
    (same : before ++ after = before' ++ after') (length : byteLength before = byteLength before') :
    before = before' ∧ after = after' := by
  have cut := splitAtByte?_append before after
  rw [same, length, splitAtByte?_append] at cut
  obtain ⟨first, second⟩ := Prod.mk.inj (Option.some.inj cut)
  exact ⟨first.symm, second.symm⟩

theorem isBoundary_append (before after : Text) :
    isBoundary (before ++ after) (byteLength before) = true := by
  simp [isBoundary, splitAtByte?_append]

theorem eq_nil_of_byteLength {cs : Text} (length : byteLength cs = 0) : cs = [] := by
  cases cs with
  | nil => rfl
  | cons c cs =>
      have positive := c.utf8Size_pos
      rw [byteLength_cons] at length
      omega

theorem splitAtByte?_eq_some {n : Nat} {cs before after : Text} :
    splitAtByte? n cs = some (before, after) ↔ cs = before ++ after ∧ byteLength before = n := by
  constructor
  · intro cut
    fun_induction splitAtByte? n cs generalizing before after with
    | case1 cs =>
        cases cut
        exact ⟨rfl, rfl⟩
    | case2 n => cases cut
    | case3 n c cs enough ih =>
        obtain ⟨⟨lead, rest⟩, inside, same⟩ := Option.map_eq_some_iff.1 cut
        cases same
        obtain ⟨rfl, length⟩ := ih inside
        exact ⟨rfl, by rw [byteLength_cons]; omega⟩
    | case4 n c cs tooWide => cases cut
  · rintro ⟨rfl, rfl⟩
    exact splitAtByte?_append before after

theorem isBoundary_iff {cs : Text} {n : Nat} :
    isBoundary cs n = true ↔ ∃ before after, cs = before ++ after ∧ byteLength before = n := by
  simp only [isBoundary, Option.isSome_iff_exists, Prod.exists, splitAtByte?_eq_some]

/-- Of two cuts of one text, the later one cuts what is behind the earlier one. -/
theorem append_eq_of_byteLength_le {before after before' after' : Text}
    (same : before ++ after = before' ++ after')
    (length : byteLength before ≤ byteLength before') :
    ∃ inside, before' = before ++ inside ∧ after = inside ++ after' := by
  rcases List.append_eq_append_iff.1 same with ⟨inside, rfl, rfl⟩ | ⟨inside, rfl, rfl⟩
  · exact ⟨inside, rfl, rfl⟩
  · rw [byteLength_append] at length
    obtain rfl : inside = [] := eq_nil_of_byteLength (by omega)
    exact ⟨[], by simp, rfl⟩

/-- The characters of a span; `none` unless the span is in range and on boundaries. -/
def slice? (cs : Text) (span : Span) : Option Text := do
  let (before, _) ← splitAtByte? span.stop cs
  let (_, inside) ← splitAtByte? span.start before
  pure inside

theorem slice?_append (before inside after : Text) :
    slice? (before ++ (inside ++ after))
      ⟨byteLength before, byteLength before + byteLength inside⟩ = some inside := by
  have stop := splitAtByte?_append (before ++ inside) after
  rw [List.append_assoc, byteLength_append] at stop
  simp [slice?, stop, splitAtByte?_append]

end Text

namespace Text

def newlines (cs : Text) : Nat :=
  cs.count '\n'

@[simp] theorem newlines_nil : newlines [] = 0 := rfl

@[simp] theorem newlines_append (cs ds : Text) :
    newlines (cs ++ ds) = newlines cs + newlines ds :=
  List.count_append

theorem newlines_cons {c : Char} (other : c ≠ '\n') (cs : Text) :
    newlines (c :: cs) = newlines cs :=
  List.count_cons_of_ne other

theorem newlines_eq_zero {cs : Text} (noNewline : ∀ c ∈ cs, c ≠ '\n') : newlines cs = 0 :=
  List.count_eq_zero.2 fun member => noNewline '\n' member rfl

/-- The characters of a text that end no later than after so many bytes. -/
theorem exists_reached (cs : Text) (o : Nat) :
    ∃ before rest, cs = before ++ rest ∧ byteLength before ≤ o ∧
      ∀ c, rest.head? = some c → o < byteLength before + c.utf8Size := by
  induction cs generalizing o with
  | nil => exact ⟨[], [], rfl, Nat.zero_le o, nofun⟩
  | cons c cs ih =>
      by_cases fits : c.utf8Size ≤ o
      · obtain ⟨before, rest, rfl, reached, stops⟩ := ih (o - c.utf8Size)
        refine ⟨c :: before, rest, rfl, ?_, fun d first => ?_⟩
        · rw [byteLength_cons]
          omega
        · have further := stops d first
          rw [byteLength_cons]
          omega
      · refine ⟨[], c :: cs, rfl, Nat.zero_le o, ?_⟩
        rintro _ ⟨⟩
        rw [byteLength_nil]
        omega

/-- The lines that a text has whole, and its last one. -/
theorem exists_lastLine (cs : Text) :
    ∃ lead inLine, cs = lead ++ inLine ∧ (lead = [] ∨ ∃ lines, lead = lines ++ ['\n']) ∧
      '\n' ∉ inLine := by
  induction cs with
  | nil => exact ⟨[], [], rfl, .inl rfl, List.not_mem_nil⟩
  | cons c cs ih =>
      obtain ⟨_, inLine, rfl, rfl | ⟨lines, rfl⟩, single⟩ := ih
      · by_cases newline : c = '\n'
        · exact ⟨[c], inLine, rfl, .inr ⟨[], by rw [newline]; rfl⟩, single⟩
        · refine ⟨[], c :: inLine, rfl, .inl rfl, ?_⟩
          exact List.not_mem_cons_of_ne_of_not_mem (Ne.symm newline) single
      · exact ⟨c :: (lines ++ ['\n']), inLine, rfl, .inr ⟨c :: lines, rfl⟩, single⟩

end Text

namespace LineIndex

theorem startsFrom_append (o : Nat) (cs ds : Text) :
    startsFrom o (cs ++ ds) = startsFrom o cs ++ startsFrom (o + Text.byteLength cs) ds := by
  induction cs generalizing o with
  | nil => rfl
  | cons c cs ih =>
      simp only [List.cons_append, startsFrom, ih, Text.byteLength_cons, Nat.add_assoc]
      split <;> simp

theorem length_startsFrom (o : Nat) (cs : Text) :
    (startsFrom o cs).length = Text.newlines cs := by
  induction cs generalizing o with
  | nil => rfl
  | cons c cs ih =>
      simp only [startsFrom, Text.newlines, List.count_cons] at ih ⊢
      split
      · simp [*]
      · simp [*]

theorem startsFrom_bounds (o : Nat) (cs : Text) :
    ∀ n ∈ startsFrom o cs, o < n ∧ n ≤ o + Text.byteLength cs := by
  induction cs generalizing o with
  | nil => exact fun _ member => nomatch member
  | cons c cs ih =>
      have size := c.utf8Size_pos
      intro n member
      simp only [startsFrom] at member
      rw [Text.byteLength_cons]
      split at member
      · rcases List.mem_cons.1 member with rfl | member
        · omega
        · have bounds := ih _ n member
          omega
      · have bounds := ih _ n member
        omega

theorem startsFrom_inLine {inLine : Text} (single : '\n' ∉ inLine) (o : Nat) :
    startsFrom o inLine = [] := by
  rw [← List.length_eq_zero_iff, length_startsFrom, Text.newlines, List.count_eq_zero]
  exact single

/-- No line starts before the first character ends. -/
theorem le_of_mem_startsFrom {o n : Nat} {c : Char} {cs : Text}
    (member : n ∈ startsFrom o (c :: cs)) : o + c.utf8Size ≤ n := by
  simp only [startsFrom] at member
  split at member
  · rcases List.mem_cons.1 member with rfl | member
    · exact Nat.le_refl _
    · exact Nat.le_of_lt (startsFrom_bounds _ cs n member).1
  · exact Nat.le_of_lt (startsFrom_bounds _ cs n member).1

end LineIndex

/-- Where an offset is in a text: the lines before its own, what is before it in its line, and what
is not before it. A character that the offset divides is not. -/
structure LineCut (text : Text) (o : Nat) (lead inLine rest : Text) : Prop where
  whole : text = lead ++ (inLine ++ rest)
  begins : lead = [] ∨ ∃ lines, lead = lines ++ ['\n']
  single : '\n' ∉ inLine
  reached : Text.byteLength (lead ++ inLine) ≤ o
  stops : ∀ c, rest.head? = some c → o < Text.byteLength (lead ++ inLine) + c.utf8Size

namespace LineCut

variable {text lead inLine rest : Text} {o : Nat}

theorem exists_cut (text : Text) (o : Nat) :
    ∃ lead inLine rest, LineCut text o lead inLine rest := by
  obtain ⟨before, rest, rfl, reached, stops⟩ := Text.exists_reached text o
  obtain ⟨lead, inLine, rfl, begins, single⟩ := Text.exists_lastLine before
  exact ⟨lead, inLine, rest, List.append_assoc _ _ _, begins, single, reached, stops⟩

theorem reached_eq (cut : LineCut text o lead inLine rest) :
    (LineIndex.ofText text).reached o = 0 :: LineIndex.startsFrom 0 lead := by
  have length := cut.reached
  rw [Text.byteLength_append] at length
  have kept : (LineIndex.startsFrom 0 lead).filter (· ≤ o) = LineIndex.startsFrom 0 lead := by
    rw [List.filter_eq_self]
    intro n member
    have bounds := LineIndex.startsFrom_bounds 0 lead n member
    exact decide_eq_true (by omega)
  have dropped : (LineIndex.startsFrom (0 + Text.byteLength lead + Text.byteLength inLine)
      rest).filter (· ≤ o) = [] := by
    rw [List.filter_eq_nil_iff]
    intro n member
    cases rest with
    | nil => cases member
    | cons c rest =>
        have behind := LineIndex.le_of_mem_startsFrom member
        have stops := cut.stops c rfl
        rw [Text.byteLength_append] at stops
        simp only [decide_eq_true_eq]
        omega
  unfold LineIndex.reached LineIndex.ofText
  rw [cut.whole, LineIndex.startsFrom_append, LineIndex.startsFrom_append,
    LineIndex.startsFrom_inLine cut.single, List.filter_cons_of_pos (by simp), List.filter_append,
    List.nil_append, kept, dropped, List.append_nil]

/-- The line of an offset is one more than the newlines before it. -/
theorem line (cut : LineCut text o lead inLine rest) :
    (LineIndex.ofText text).line o = 1 + Text.newlines (lead ++ inLine) := by
  have none : Text.newlines inLine = 0 := List.count_eq_zero.2 cut.single
  rw [LineIndex.line, cut.reached_eq, List.length_cons, LineIndex.length_startsFrom,
    Text.newlines_append, none, Nat.add_comm]
  rfl

/-- The column of an offset is one more than its distance from where its line starts. -/
theorem column (cut : LineCut text o lead inLine rest) :
    (LineIndex.ofText text).column o = o - Text.byteLength lead + 1 := by
  have last : (0 :: LineIndex.startsFrom 0 lead).getLastD 0 = Text.byteLength lead := by
    rcases cut.begins with rfl | ⟨lines, rfl⟩
    · rfl
    · have ends : 0 :: LineIndex.startsFrom 0 (lines ++ ['\n']) =
          (0 :: LineIndex.startsFrom 0 lines) ++ [0 + Text.byteLength lines + 1] := by
        rw [LineIndex.startsFrom_append]
        rfl
      rw [ends, List.getLastD_concat, Text.byteLength_append, Nat.zero_add]
      rfl
  rw [LineIndex.column, cut.reached_eq, last]

end LineCut

namespace LineIndex

theorem line_ofText (before after : Text) :
    (ofText (before ++ after)).line (Text.byteLength before) = Text.newlines before + 1 := by
  obtain ⟨lead, inLine, rfl, begins, single⟩ := Text.exists_lastLine before
  have cut : LineCut (lead ++ inLine ++ after) (Text.byteLength (lead ++ inLine)) lead inLine
      after := by
    refine ⟨List.append_assoc _ _ _, begins, single, Nat.le_refl _, fun c _ => ?_⟩
    exact Nat.lt_add_of_pos_right c.utf8Size_pos
  rw [cut.line, Nat.add_comm]

end LineIndex

end SqlUnits
