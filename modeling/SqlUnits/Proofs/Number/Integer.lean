import Mathlib.Data.List.Induction
import Mathlib.Data.Nat.Digits.Defs
import SqlUnits.Number.Integer
import SqlUnits.Proofs.Text.Run
/-!
Integers are read back from their decimal forms, and words of both widths from the integers that
they stand for. A count is read from digits, with or without a plus sign, up to its bound.
-/

namespace SqlUnits

theorem int32?_toInt (n : Int32) : int32? n.toInt = some n := by
  have bounds : Int32.minValue.toInt ≤ n.toInt ∧ n.toInt ≤ Int32.maxValue.toInt :=
    ⟨n.minValue_le_toInt, n.toInt_le⟩
  rw [int32?, if_pos bounds, Int32.ofInt_toInt]

theorem int64?_toInt (n : Int64) : int64? n.toInt = some n := by
  have bounds : Int64.minValue.toInt ≤ n.toInt ∧ n.toInt ≤ Int64.maxValue.toInt :=
    ⟨n.minValue_le_toInt, n.toInt_le⟩
  rw [int64?, if_pos bounds, Int64.ofInt_toInt]

/-- The integers of so many bits, sign included. -/
def HasBits (bits : Nat) (n : Int) : Prop :=
  -2 ^ (bits - 1) ≤ n ∧ n < 2 ^ (bits - 1)

instance (bits : Nat) (n : Int) : Decidable (HasBits bits n) :=
  inferInstanceAs (Decidable (_ ∧ _))

theorem int32?_of_hasBits {n : Int} (fits : HasBits 32 n) :
    ∃ w, int32? n = some w ∧ w.toInt = n := by
  have bounds : Int32.minValue.toInt ≤ n ∧ n ≤ Int32.maxValue.toInt :=
    ⟨fits.1, Int.le_of_lt_add_one fits.2⟩
  exact ⟨Int32.ofInt n, if_pos bounds, Int32.toInt_ofInt_of_le fits.1 fits.2⟩

theorem int32?_eq_none {n : Int} (wide : ¬HasBits 32 n) : int32? n = none :=
  if_neg fun bounds => wide ⟨bounds.1, Int.lt_add_one_of_le bounds.2⟩

theorem int64?_of_hasBits {n : Int} (fits : HasBits 64 n) :
    ∃ w, int64? n = some w ∧ w.toInt = n := by
  have bounds : Int64.minValue.toInt ≤ n ∧ n ≤ Int64.maxValue.toInt :=
    ⟨fits.1, Int.le_of_lt_add_one fits.2⟩
  exact ⟨Int64.ofInt n, if_pos bounds, Int64.toInt_ofInt_of_le fits.1 fits.2⟩

theorem int64?_eq_none {n : Int} (wide : ¬HasBits 64 n) : int64? n = none :=
  if_neg fun bounds => wide ⟨bounds.1, Int.lt_add_one_of_le bounds.2⟩

theorem HasBits.mono {few many : Nat} {n : Int} (more : few ≤ many) (fits : HasBits few n) :
    HasBits many n := by
  have wider : (2 : Int) ^ (few - 1) ≤ 2 ^ (many - 1) :=
    pow_le_pow_right₀ (by decide) (Nat.sub_le_sub_right more 1)
  exact ⟨(neg_le_neg wider).trans fits.1, fits.2.trans_le wider⟩

namespace Text

/-- The digits of a number, the first one counting most. -/
theorem natOfDigits_eq (digits : Text) :
    natOfDigits digits = Nat.ofDigits 10 (digits.reverse.map digitValue) := by
  induction digits using List.reverseRecOn with
  | nil => rfl
  | append_singleton digits c ih =>
      rw [natOfDigits, List.foldl_append, ← natOfDigits, ih, List.reverse_append]
      simp [Nat.ofDigits_cons]
      omega

theorem toList_toString (n : Int) :
    (toString n).toList = (if n < 0 then ['-'] else []) ++ Nat.toDigits 10 n.natAbs := by
  cases n with
  | ofNat m =>
      have digits : (toString (Int.ofNat m)).toList = Nat.toDigits 10 m := Nat.toList_repr
      have least : ¬Int.ofNat m < 0 := by simp
      rw [digits, if_neg least]
      rfl
  | negSucc m =>
      have digits : (toString (Int.negSucc m)).toList = '-' :: Nat.toDigits 10 (m + 1) := by
        show ("-" ++ Nat.repr (m + 1)).toList = _
        rw [String.toList_append, Nat.toList_repr]
        rfl
      rw [digits, if_pos (Int.negSucc_lt_zero m)]
      rfl

variable {digits : Text}

theorem toInt?_digits (some_ : digits ≠ []) (all : ∀ c ∈ digits, isDigit c = true) :
    toInt? digits = some (natOfDigits digits : Int) := by
  have proper : (digits.isEmpty || !digits.all isDigit) = false := by simpa [some_] using all
  obtain ⟨c, rest, rfl⟩ := List.exists_cons_of_ne_nil some_
  have digit := all c (.head _)
  have noSign : c ≠ '-' ∧ c ≠ '+' := by
    constructor <;> rintro rfl <;> exact absurd digit (by decide)
  have unsigned : toInt? (c :: rest) = if (c :: rest).isEmpty || !(c :: rest).all isDigit then none
      else some (natOfDigits (c :: rest) : Int) := by
    unfold toInt?
    split
    simp_all
  rw [unsigned, proper]
  rfl

theorem toInt?_minus (some_ : digits ≠ []) (all : ∀ c ∈ digits, isDigit c = true) :
    toInt? ('-' :: digits) = some (-(natOfDigits digits : Int)) := by
  have proper : (digits.isEmpty || !digits.all isDigit) = false := by simpa [some_] using all
  simp [toInt?, proper]

theorem toInt?_toString (n : Int) : toInt? (toString n).toList = some n := by
  have some_ : Nat.toDigits 10 n.natAbs ≠ [] := Nat.toDigits_ne_nil
  have all (c : Char) (member : c ∈ Nat.toDigits 10 n.natAbs) := isDigit_of_mem_toDigits member
  have value : natOfDigits (Nat.toDigits 10 n.natAbs) = n.natAbs := Nat.ofDigitChars_ten_toDigits
  rw [toList_toString]
  split
  · rw [List.singleton_append, toInt?_minus some_ all, value]
    congr 1
    omega
  · rw [List.nil_append, toInt?_digits some_ all, value]
    congr 1
    omega

theorem toNatBelow?_eq_some {bound n : Nat} {cs : Text} :
    toNatBelow? bound cs = some n ↔
      (∃ digits, (cs = digits ∨ cs = '+' :: digits) ∧ digits ≠ [] ∧
        (∀ c ∈ digits, isDigit c = true) ∧ natOfDigits digits = n) ∧ n < bound := by
  obtain ⟨digits, unsigned, whole⟩ : ∃ digits,
      (cs = '+' :: digits ∨ cs = digits ∧ cs.head? ≠ some '+') ∧ toNatBelow? bound cs =
        if (digits.isEmpty || !digits.all isDigit) = true then none
        else if natOfDigits digits < bound then some (natOfDigits digits) else none := by
    unfold toNatBelow?
    split
    · exact ⟨_, .inl rfl, rfl⟩
    · rename_i other
      refine ⟨_, .inr ⟨rfl, fun plus => ?_⟩, rfl⟩
      obtain ⟨rest, rfl⟩ := List.head?_eq_some_iff.1 plus
      exact other rest rfl
  rw [whole]
  constructor
  · intro read
    split at read
    · cases read
    · rename_i proper
      split at read
      · rename_i word
        cases read
        simp only [Bool.or_eq_true, List.isEmpty_iff, Bool.not_eq_true', not_or,
          Bool.not_eq_false, List.all_eq_true] at proper
        exact ⟨⟨digits, unsigned.symm.imp_left And.left, proper.1, proper.2, rfl⟩, word⟩
      · cases read
  · rintro ⟨⟨digits', unsigned', some_, all, rfl⟩, word⟩
    have noSign : digits'.head? ≠ some '+' := by
      intro plus
      exact absurd (all '+' (List.mem_of_head? plus)) (by decide)
    obtain rfl : digits = digits' := by
      rcases unsigned with rfl | ⟨rfl, unsigned⟩ <;> rcases unsigned' with same | same
      · rw [← same] at noSign
        exact absurd rfl noSign
      · exact (List.cons.inj same).2
      · exact same
      · rw [same] at unsigned
        exact absurd rfl unsigned
    have proper : (digits.isEmpty || !digits.all isDigit) = false := by simpa [some_] using all
    simp [proper, word]

theorem toNatBelow?_toString {bound n : Nat} (word : n < bound) :
    toNatBelow? bound (toString n).toList = some n := by
  have digits : (toString n).toList = Nat.toDigits 10 n := Nat.toList_repr
  rw [digits]
  exact toNatBelow?_eq_some.2 ⟨⟨_, .inl rfl, Nat.toDigits_ne_nil,
    fun _ member => isDigit_of_mem_toDigits member, Nat.ofDigitChars_ten_toDigits⟩, word⟩

end Text

end SqlUnits
