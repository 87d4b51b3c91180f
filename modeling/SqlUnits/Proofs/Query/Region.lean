import SqlUnits.Proofs.Text.Run
import SqlUnits.Query.Region
/-!
Regions are local: what a region is depends on its own text and on the character behind it, so the
same region is read when another text follows that goes on alike.
-/

namespace SqlUnits.Query

theorem closeQuote?_next {quote : Char} {cs inside after : Text}
    (closed : closeQuote? quote cs = some (inside, after)) : after.head? ≠ some quote := by
  fun_induction closeQuote? quote cs generalizing inside after with
  | case1 => simp at closed
  | case2 =>
      cases closed
      simp
  | case3 => simp at closed
  | case4 rest ih =>
      obtain ⟨⟨i, a⟩, tail, equality⟩ := Option.map_eq_some_iff.1 closed
      cases equality
      exact ih tail
  | case5 d rest different =>
      cases closed
      simpa using different
  | case6 c d rest _ ih =>
      obtain ⟨⟨i, a⟩, tail, equality⟩ := Option.map_eq_some_iff.1 closed
      cases equality
      exact ih tail

/-- A closing quote closes before any text that does not double it. -/
theorem closeQuote?_before {quote : Char} {cs inside after other : Text}
    (closed : closeQuote? quote cs = some (inside, after)) (next : other.head? ≠ some quote) :
    closeQuote? quote (inside ++ other) = some (inside, other) := by
  fun_induction closeQuote? quote cs generalizing inside after with
  | case1 => simp at closed
  | case2 =>
      cases closed
      cases other with
      | nil => simp [closeQuote?]
      | cons d rest =>
          have different : d ≠ quote := by simpa using next
          simp [closeQuote?, different]
  | case3 => simp at closed
  | case4 rest ih =>
      obtain ⟨⟨i, a⟩, tail, equality⟩ := Option.map_eq_some_iff.1 closed
      cases equality
      simp [closeQuote?, ih tail]
  | case5 d rest different =>
      cases closed
      cases other with
      | nil => simp [closeQuote?]
      | cons e rest =>
          have different : e ≠ quote := by simpa using next
          simp [closeQuote?, different]
  | case6 c d rest different ih =>
      obtain ⟨⟨i, a⟩, tail, equality⟩ := Option.map_eq_some_iff.1 closed
      cases equality
      have written := closeQuote?_append tail
      cases i with
      | nil =>
          -- nothing closes on an empty inside
          have := ih tail
          cases other <;> simp_all [closeQuote?]
      | cons e i =>
          have equality : e = d := by simpa using congrArg List.head? written
          simp [closeQuote?, different, ← ih tail]

theorem closeQuote?_getLast {quote : Char} {cs inside after : Text}
    (closed : closeQuote? quote cs = some (inside, after)) : inside.getLast? = some quote := by
  fun_induction closeQuote? quote cs generalizing inside after with
  | case1 => simp at closed
  | case2 =>
      cases closed
      rfl
  | case3 => simp at closed
  | case4 rest ih =>
      obtain ⟨⟨i, a⟩, tail, equality⟩ := Option.map_eq_some_iff.1 closed
      cases equality
      simp [List.getLast?_cons, ih tail]
  | case5 d rest _ =>
      cases closed
      rfl
  | case6 c d rest _ ih =>
      obtain ⟨⟨i, a⟩, tail, equality⟩ := Option.map_eq_some_iff.1 closed
      cases equality
      simp [List.getLast?_cons, ih tail]

theorem closeComment?_getLast {cs inside after : Text}
    (closed : closeComment? cs = some (inside, after)) : inside.getLast? = some '/' := by
  fun_induction closeComment? cs generalizing inside after with
  | case1 =>
      cases closed
      rfl
  | case2 c rest _ ih =>
      obtain ⟨⟨i, a⟩, tail, equality⟩ := Option.map_eq_some_iff.1 closed
      cases equality
      simp [List.getLast?_cons, ih tail]
  | case3 => simp at closed

/-- A closing mark closes before any text. -/
theorem closeComment?_before {cs inside after : Text}
    (closed : closeComment? cs = some (inside, after)) (other : Text) :
    closeComment? (inside ++ other) = some (inside, other) := by
  fun_induction closeComment? cs generalizing inside after with
  | case1 =>
      cases closed
      rfl
  | case2 c rest noMark ih =>
      obtain ⟨⟨i, a⟩, tail, equality⟩ := Option.map_eq_some_iff.1 closed
      cases equality
      have written := closeComment?_append tail
      cases i with
      | nil => simpa using closeComment?_getLast tail
      | cons d i =>
          rw [List.cons_append, closeComment?, ih tail]
          · rfl
          · intro rest' star equality
            cases equality
            exact noMark _ star (by rw [← written]; rfl)
  | case3 => simp at closed

/-- What may follow a region without becoming a part of it. -/
def EndsBefore (region : Text) (next : Option Char) : Prop :=
  match region with
  | '-' :: _ => next = none ∨ next = some '\n'
  | '/' :: _ => True
  | quote :: _ => next ≠ some quote
  | [] => False

theorem verbatim_endsBefore {cs region rest : Text} (read : verbatim cs = .region region rest) :
    EndsBefore region rest.head? := by
  unfold verbatim at read
  split at read
  case h_4 tail =>
    cases read
    have stop := Text.head?_dropWhile (· ≠ '\n') tail
    cases h : (tail.dropWhile (· ≠ '\n')).head? with
    | none => exact .inl rfl
    | some c =>
        rw [h] at stop
        exact .inr (by simpa using stop)
  case h_6 => simp at read
  all_goals
    obtain ⟨inside, closed, rfl⟩ := Verbatim.ofClosed_region read
    first
      | exact closeQuote?_next closed
      | trivial

/-- A region ends with its closing mark, unless it is a line comment. -/
theorem verbatim_getLast? {cs region rest : Text} (read : verbatim cs = .region region rest) :
    (∃ c ∈ ['\'', '"', '\x60', '/'], region.getLast? = some c) ∨ ∃ tail, region = '-' :: tail := by
  unfold verbatim at read
  split at read
  case h_4 =>
    cases read
    exact .inr ⟨_, rfl⟩
  case h_6 => simp at read
  all_goals
    obtain ⟨inside, closed, rfl⟩ := Verbatim.ofClosed_region read
    first
      | refine .inl ⟨_, ?_, by rw [List.getLast?_append, closeQuote?_getLast closed]; rfl⟩
        decide
      | refine .inl ⟨_, ?_, by rw [List.getLast?_append, closeComment?_getLast closed]; rfl⟩
        decide

/-- A region is read before every text that may follow it. -/
theorem verbatim_before {cs region rest other : Text}
    (read : verbatim cs = .region region rest) (next : EndsBefore region other.head?) :
    verbatim (region ++ other) = .region region other := by
  unfold verbatim at read
  split at read
  case h_4 tail =>
    cases read
    have stop : other.head?.any (· ≠ '\n') = false := by
      cases next with
      | inl none => simp [none]
      | inr newline => simp [newline]
    have all := Text.forall_mem_takeWhile (· ≠ '\n') tail
    simp only [verbatim, List.cons_append, Text.takeWhile_run all stop,
      Text.dropWhile_run all stop]
  case h_6 => simp at read
  all_goals
    obtain ⟨inside, closed, rfl⟩ := Verbatim.ofClosed_region read
    first
      | simp [verbatim, Verbatim.ofClosed, closeQuote?_before closed next]
      | simp [verbatim, Verbatim.ofClosed, closeComment?_before closed other]

theorem EndsBefore.atEnd {text : Text} {next : Option Char} (ends : EndsBefore text next) :
    EndsBefore text none := by
  unfold EndsBefore at ends ⊢
  split at ends
  case h_1 => exact .inl rfl
  case h_2 => trivial
  case h_3 => simp
  case h_4 => exact ends

theorem Verbatim.ofClosed_ne_none (opening : Text) (construct : Construct)
    (closed : Option (Text × Text)) : Verbatim.ofClosed opening construct closed ≠ .none := by
  cases closed <;> simp [ofClosed]

/-- Where no region begins, the first character opens none. -/
theorem verbatim_eq_none {c : Char} {rest : Text} (plain : verbatim (c :: rest) = .none) :
    c ∉ ['\'', '"', '\x60'] ∧ (c = '-' → rest.head? ≠ some '-') ∧
      (c = '/' → rest.head? ≠ some '*') := by
  refine ⟨?_, ?_, ?_⟩
  · intro member
    simp only [List.mem_cons, List.not_mem_nil, or_false] at member
    rcases member with rfl | rfl | rfl
    all_goals
      exact Verbatim.ofClosed_ne_none _ _ _ plain
  · rintro rfl
    cases rest with
    | nil => simp
    | cons d rest =>
        intro dash
        cases (Option.some.inj dash : d = '-')
        simp [verbatim] at plain
  · rintro rfl
    cases rest with
    | nil => simp
    | cons d rest =>
        intro star
        cases (Option.some.inj star : d = '*')
        exact Verbatim.ofClosed_ne_none _ _ _ plain

theorem verbatim_plain {c : Char} {rest : Text} (noQuote : c ∉ ['\'', '"', '\x60'])
    (noLine : c = '-' → rest.head? ≠ some '-') (noBlock : c = '/' → rest.head? ≠ some '*') :
    verbatim (c :: rest) = .none := by
  unfold verbatim
  split <;> simp_all

/-- A character that has no part in the beginning or the end of a quoted region or a block
comment. -/
def Neutral (c : Char) : Prop :=
  c ∉ ['\'', '"', '\x60', '-', '/', '*']

instance (c : Char) : Decidable (Neutral c) :=
  inferInstanceAs (Decidable (c ∉ _))

theorem neutral_of_isBlank {c : Char} (blank : Text.isBlank c = true) : Neutral c := by
  have solid : ['\'', '"', '\x60', '-', '/', '*'].any Text.isBlank = false := by decide
  exact fun member => List.any_eq_false.1 solid c member blank

theorem Neutral.verbatim {c : Char} (neutral : Neutral c) (rest : Text) :
    verbatim (c :: rest) = .none := by
  unfold Neutral at neutral
  apply verbatim_plain <;> simp_all

/-- What a blank may follow may be followed by any neutral character. -/
theorem verbatim_neutral {cs region rest other : Text} {c : Char}
    (read : verbatim cs = .region region (' ' :: rest)) (neutral : Neutral c) :
    verbatim (region ++ c :: other) = .region region (c :: other) := by
  have ends := verbatim_endsBefore read
  refine verbatim_before read ?_
  unfold Neutral at neutral
  unfold Query.verbatim at read
  split at read
  case h_4 =>
    obtain ⟨rfl, _⟩ := Verbatim.region.inj read
    rcases ends with none | newline
    · cases none
    · exact absurd newline (by simp)
  case h_6 => simp at read
  all_goals
    obtain ⟨inside, closed, rfl⟩ := Verbatim.ofClosed_region read
    simp_all [EndsBefore]

theorem verbatim_char_neutral {b c : Char} {rest other : Text}
    (plain : verbatim (b :: ' ' :: rest) = .none) (neutral : Neutral c) :
    verbatim (b :: c :: other) = .none := by
  obtain ⟨noQuote, _, _⟩ := verbatim_eq_none plain
  unfold Neutral at neutral
  apply verbatim_plain <;> simp_all

end SqlUnits.Query
