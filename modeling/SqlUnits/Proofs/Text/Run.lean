import Mathlib.Data.List.TakeWhile
import SqlUnits.Text.Ascii
import SqlUnits.Text.Blank
/-!
Runs: the longest beginning of a text whose characters are all of one class, and what it ends at.
-/

namespace SqlUnits.Text

variable {p : Char → Bool} {run rest : Text}

theorem takeWhile_stopped (stop : rest.head?.any p = false) : rest.takeWhile p = [] := by
  cases rest with
  | nil => rfl
  | cons c rest =>
      have outside : p c = false := by simpa using stop
      simp [outside]

theorem dropWhile_stopped (stop : rest.head?.any p = false) : rest.dropWhile p = rest := by
  cases rest with
  | nil => rfl
  | cons c rest =>
      have outside : p c = false := by simpa using stop
      simp [outside]

theorem takeWhile_run (all : ∀ c ∈ run, p c) (stop : rest.head?.any p = false) :
    (run ++ rest).takeWhile p = run := by
  rw [List.takeWhile_append_of_pos all, takeWhile_stopped stop, List.append_nil]

theorem dropWhile_run (all : ∀ c ∈ run, p c) (stop : rest.head?.any p = false) :
    (run ++ rest).dropWhile p = rest := by
  rw [List.dropWhile_append_of_pos all, dropWhile_stopped stop]

theorem forall_mem_takeWhile (p : Char → Bool) (cs : Text) : ∀ c ∈ cs.takeWhile p, p c :=
  fun _ member => List.mem_takeWhile_imp member

/-- What follows the longest run is of another class. -/
theorem head?_dropWhile (p : Char → Bool) (cs : Text) : (cs.dropWhile p).head?.any p = false := by
  have stops := List.head?_dropWhile_not p cs
  cases h : (cs.dropWhile p).head? with
  | none => rfl
  | some c => simpa [h] using stops

theorem isIdentChar_of_isDigit {c : Char} (digit : isDigit c = true) : isIdentChar c = true := by
  simp [isIdentChar, digit]

theorem isDigit_of_mem_toDigits {n : Nat} {c : Char} (member : c ∈ Nat.toDigits 10 n) :
    isDigit c = true := by
  have digit := Nat.isDigit_of_mem_toDigits (by decide) (by decide) member
  simp only [Char.isDigit, Bool.and_eq_true, decide_eq_true_eq] at digit
  simp only [isDigit, Bool.and_eq_true, decide_eq_true_eq]
  exact digit

/-- A number is a run of identifier characters. -/
theorem number_isIdent (n : Nat) :
    (toString n).toList ≠ [] ∧ ∀ c ∈ (toString n).toList, isIdentChar c := by
  have digits : (toString n).toList = Nat.toDigits 10 n := Nat.toList_repr
  rw [digits]
  refine ⟨Nat.toDigits_ne_nil, fun c member => isIdentChar_of_isDigit ?_⟩
  exact isDigit_of_mem_toDigits member

/-! Blanks around a text. -/

theorem isBlank_of_bounds {c : Char} {low high : Nat} (least : low ≤ c.toNat)
    (most : c.toNat ≤ high) (above : 0x20 < low) (under : high < 0x85) : isBlank c = false := by
  simp only [isBlank, Bool.or_eq_false_iff, Bool.and_eq_false_iff, decide_eq_false_iff_not,
    beq_eq_false_iff_ne]
  omega

theorem isBlank_of_isIdentChar {c : Char} (name : isIdentChar c = true) : isBlank c = false := by
  simp only [isIdentChar, isLetter, isLower, isUpper, isDigit, Bool.or_eq_true, Bool.and_eq_true,
    decide_eq_true_eq, beq_iff_eq, Char.le_def, UInt32.le_iff_toNat_le] at name
  rcases name with ((bounds | bounds) | bounds) | rfl
  · exact isBlank_of_bounds bounds.1 bounds.2 (by decide) (by decide)
  · exact isBlank_of_bounds bounds.1 bounds.2 (by decide) (by decide)
  · exact isBlank_of_bounds bounds.1 bounds.2 (by decide) (by decide)
  · decide

theorem isBlank_of_isDigit {c : Char} (digit : isDigit c = true) : isBlank c = false :=
  isBlank_of_isIdentChar (isIdentChar_of_isDigit digit)

/-- Nothing is trimmed off a text with no blank at either end. -/
theorem trim_of_solid {cs : Text} (starts : cs.head?.any isBlank = false)
    (ends : cs.getLast?.any isBlank = false) : trim cs = cs := by
  unfold trim trimEnd trimStart
  rw [dropWhile_stopped starts, dropWhile_stopped (by rwa [List.head?_reverse]),
    List.reverse_reverse]

theorem trimEnd_cut (cs : Text) : ∃ trail, cs = trimEnd cs ++ trail := by
  have whole := List.takeWhile_append_dropWhile (p := isBlank) (l := cs.reverse)
  refine ⟨(cs.reverse.takeWhile isBlank).reverse, ?_⟩
  rw [trimEnd, ← List.reverse_append, whole, List.reverse_reverse]

/-- What is trimmed off a text are blanks. -/
theorem trim_cut (cs : Text) :
    ∃ lead trail, cs = lead ++ (trim cs ++ trail) ∧ (∀ c ∈ lead, isBlank c = true) ∧
      ∀ c ∈ trail, isBlank c = true := by
  have front := List.takeWhile_append_dropWhile (p := isBlank) (l := cs)
  have back := List.takeWhile_append_dropWhile (p := isBlank) (l := (trimStart cs).reverse)
  refine ⟨cs.takeWhile isBlank, ((trimStart cs).reverse.takeWhile isBlank).reverse, ?_,
    forall_mem_takeWhile _ _, ?_⟩
  · rw [trim, trimEnd, ← List.reverse_append, back, List.reverse_reverse]
    exact front.symm
  · exact fun c member => forall_mem_takeWhile _ _ c (List.mem_reverse.1 member)

/-- A trimmed text has no blank at either end. -/
theorem solid_of_trim {cs : Text} (trimmed : trim cs = cs) :
    cs.head?.any isBlank = false ∧ cs.getLast?.any isBlank = false := by
  have first := head?_dropWhile isBlank cs
  have last := head?_dropWhile isBlank (trimStart cs).reverse
  obtain ⟨trail, cut⟩ := trimEnd_cut (trimStart cs)
  rw [← List.getLast?_reverse] at last
  change (trim cs).getLast?.any isBlank = false at last
  rw [trimmed] at last
  refine ⟨?_, last⟩
  change (trimStart cs).head?.any isBlank = false at first
  rw [cut, show trimEnd (trimStart cs) = cs from trimmed] at first
  cases cs with
  | nil => rfl
  | cons c cs => exact first

/-- The blanks around a trimmed text are trimmed off. -/
theorem trim_pad {lead cs trail : Text} (leads : ∀ c ∈ lead, isBlank c = true)
    (trails : ∀ c ∈ trail, isBlank c = true) (some_ : cs ≠ []) (trimmed : trim cs = cs) :
    trim (lead ++ (cs ++ trail)) = cs := by
  obtain ⟨first, last⟩ := solid_of_trim trimmed
  have start : trimStart (lead ++ (cs ++ trail)) = cs ++ trail := by
    unfold trimStart
    rw [List.dropWhile_append_of_pos leads]
    refine dropWhile_stopped ?_
    cases cs with
    | nil => exact absurd rfl some_
    | cons c cs => exact first
  rw [trim, start, trimEnd, List.reverse_append, List.dropWhile_append_of_pos, dropWhile_stopped,
    List.reverse_reverse]
  · rwa [List.head?_reverse]
  · exact fun c member => trails c (List.mem_reverse.1 member)

end SqlUnits.Text
