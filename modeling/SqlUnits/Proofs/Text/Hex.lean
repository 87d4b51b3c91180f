import SqlUnits.Text.Hex
/-!
Bytes and the hexadecimal texts that they are read from. A text without a plus sign is read exactly
if it consists of pairs of digits, and is what its bytes are written as, up to the case of its
letters. A plus sign that leads a pair is read like a zero there.
-/

namespace SqlUnits.Hex

variable {c high low : Char} {h : Text} {b : UInt8} {bytes : List UInt8} {v : Nat}

/-- The digits of both cases. -/
def digits : Text :=
  ['0', '1', '2', '3', '4', '5', '6', '7', '8', '9', 'a', 'b', 'c', 'd', 'e', 'f',
    'A', 'B', 'C', 'D', 'E', 'F']

theorem digits_ascii : ∀ c ∈ digits, c.toNat < 128 := by
  have all : digits.all (fun c => decide (c.toNat < 128)) = true := by decide
  exact fun c member => of_decide_eq_true (List.all_eq_true.1 all c member)

theorem digit_ascii : ∀ v < 16, (digit v).toNat < 128 := by
  decide

theorem digit_inj : ∀ v < 16, ∀ w < 16, digit v = digit w → v = w := by
  decide

theorem ascii_of_value? (read : value? c = some v) : c.toNat < 128 := by
  have bound {last : Char} (most : c ≤ last) : c.toNat ≤ last.toNat :=
    UInt32.le_iff_toNat_le.1 most
  unfold value? at read
  split at read
  case isTrue digit =>
    simp only [Text.isDigit, Bool.and_eq_true, decide_eq_true_eq] at digit
    exact Nat.lt_of_le_of_lt (bound digit.2) (by decide)
  case isFalse =>
    split at read
    case isTrue small =>
      simp only [Bool.and_eq_true, decide_eq_true_eq] at small
      exact Nat.lt_of_le_of_lt (bound small.2) (by decide)
    case isFalse =>
      split at read
      case isTrue large =>
        simp only [Bool.and_eq_true, decide_eq_true_eq] at large
        exact Nat.lt_of_le_of_lt (bound large.2) (by decide)
      case isFalse => cases read

theorem ascii_of_lower (small : (Text.lower c).toNat < 128) : c.toNat < 128 := by
  unfold Text.lower at small
  split at small
  · rename_i upper
    simp only [Text.isUpper, Bool.and_eq_true, decide_eq_true_eq] at upper
    have most : c.toNat ≤ 'Z'.toNat := UInt32.le_iff_toNat_le.1 upper.2
    exact Nat.lt_of_le_of_lt most (by decide)
  · exact small

/-- A digit in the smaller case is how its value is written. -/
theorem value?_eq_some_iff : value? c = some v ↔ v < 16 ∧ Text.lower c = digit v := by
  have table : ∀ n < 128, ∀ v < 16,
      value? (Char.ofNat n) = some v ↔ Text.lower (Char.ofNat n) = digit v := by decide +kernel
  have small : ∀ n < 128, ∀ v ∈ value? (Char.ofNat n), v < 16 := by decide +kernel
  constructor
  · intro read
    have ascii := ascii_of_value? read
    rw [← Char.ofNat_toNat c] at read
    have bound := small c.toNat ascii v read
    have same := (table c.toNat ascii v bound).1 read
    rw [Char.ofNat_toNat] at same
    exact ⟨bound, same⟩
  · rintro ⟨bound, same⟩
    have ascii : c.toNat < 128 := ascii_of_lower (same ▸ digit_ascii v bound)
    rw [← Char.ofNat_toNat c] at same ⊢
    exact (table c.toNat ascii v bound).2 same

theorem value?_isSome_iff : (value? c).isSome ↔ c ∈ digits := by
  have table : ∀ n < 128, (value? (Char.ofNat n)).isSome ↔ Char.ofNat n ∈ digits := by
    decide +kernel
  constructor
  · intro read
    obtain ⟨v, read'⟩ := Option.isSome_iff_exists.1 read
    have ascii := ascii_of_value? read'
    have same := table c.toNat ascii
    rw [Char.ofNat_toNat] at same
    exact same.1 read
  · intro member
    have same := table c.toNat (digits_ascii c member)
    rw [Char.ofNat_toNat] at same
    exact same.2 member

/-- What the first character of a pair counts as. -/
def lead (c : Char) : Char :=
  if c = '+' then '0' else c

theorem byte?_eq (high low : Char) :
    byte? high low =
      (value? (lead high)).bind fun h => (value? low).map fun l => UInt8.ofNat (16 * h + l) := by
  unfold byte? lead
  split
  · have zero : value? '0' = some 0 := by decide
    simp [zero]
  · cases value? high <;> cases value? low <;> rfl

theorem ofByte_ofNat {h l : Nat} (high : h < 16) (low : l < 16) :
    ofByte (UInt8.ofNat (16 * h + l)) = [digit h, digit l] := by
  have value : (UInt8.ofNat (16 * h + l)).toNat = 16 * h + l := by
    rw [UInt8.toNat_ofNat']
    omega
  rw [ofByte, value, show (16 * h + l) / 16 = h by omega, show (16 * h + l) % 16 = l by omega]

theorem ofByte_inj {b b' : UInt8} (same : ofByte b = ofByte b') : b = b' := by
  have small := b.toNat_lt
  have small' := b'.toNat_lt
  obtain ⟨high, rest⟩ := List.cons.inj same
  have high := digit_inj _ (by omega) _ (by omega) high
  have low := digit_inj _ (by omega) _ (by omega) (List.cons.inj rest).1
  refine UInt8.toNat_inj.1 ?_
  omega

/-- A pair is read as the byte that is written like it. -/
theorem byte?_eq_some_iff :
    byte? high low = some b ↔ ofByte b = [Text.lower (lead high), Text.lower low] := by
  rw [byte?_eq]
  simp only [Option.bind_eq_some_iff, Option.map_eq_some_iff, value?_eq_some_iff]
  constructor
  · rintro ⟨h, ⟨smallHigh, sameHigh⟩, l, ⟨smallLow, sameLow⟩, rfl⟩
    rw [ofByte_ofNat smallHigh smallLow, sameHigh, sameLow]
  · intro written
    have small := b.toNat_lt
    have ⟨sameHigh, rest⟩ := List.cons.inj written
    refine ⟨b.toNat / 16, ⟨by omega, sameHigh.symm⟩, b.toNat % 16,
      ⟨Nat.mod_lt _ (by decide), (List.cons.inj rest).1.symm⟩, ofByte_inj ?_⟩
    exact ofByte_ofNat (by omega) (Nat.mod_lt _ (by decide))

/-- A text with a zero in place of each plus sign that leads a pair. -/
def unsigned : Text → Text
  | high :: low :: rest => lead high :: low :: unsigned rest
  | rest => rest

theorem unsigned_eq (noSign : '+' ∉ h) : unsigned h = h := by
  fun_induction unsigned h with
  | case1 high low rest ih =>
      simp only [List.mem_cons, not_or] at noSign
      rw [lead, if_neg (Ne.symm noSign.1), ih noSign.2.2]
  | case2 => rfl

/-- A text is read as the bytes that are written like it. -/
theorem toBytes?_eq_some_iff :
    toBytes? h = some bytes ↔ (ofBytes bytes).toList = (unsigned h).map Text.lower := by
  rw [ofBytes, String.toList_ofList]
  fun_induction toBytes? h generalizing bytes with
  | case1 => cases bytes <;> simp [unsigned, ofByte]
  | case2 c => cases bytes <;> simp [unsigned, ofByte]
  | case3 high low rest ih =>
      simp only [bind, Option.bind_eq_some_iff, pure, Option.some.injEq, unsigned, List.map_cons]
      constructor
      · rintro ⟨b, pair, bs, more, rfl⟩
        rw [List.flatMap_cons, byte?_eq_some_iff.1 pair, ih.1 more]
        rfl
      · intro written
        cases bytes with
        | nil => cases written
        | cons b bs =>
            have same : ofByte b ++ bs.flatMap ofByte =
                [Text.lower (lead high), Text.lower low] ++ (unsigned rest).map Text.lower := written
            obtain ⟨first, more⟩ := List.append_inj same rfl
            exact ⟨b, byte?_eq_some_iff.2 first, bs, ih.2 more, rfl⟩

theorem byte?_ofByte (b : UInt8) :
    byte? (digit (b.toNat / 16)) (digit (b.toNat % 16)) = some b := by
  have own : ∀ v < 16, lead (digit v) = digit v ∧ Text.lower (digit v) = digit v := by decide
  have small := b.toNat_lt
  have high := own (b.toNat / 16) (by omega)
  have low := own (b.toNat % 16) (Nat.mod_lt _ (by decide))
  rw [byte?_eq_some_iff, high.1, high.2, low.2]
  rfl

theorem toBytes?_ofBytes (bytes : List UInt8) : toBytes? (ofBytes bytes).toList = some bytes := by
  rw [ofBytes, String.toList_ofList]
  induction bytes with
  | nil => rfl
  | cons b rest ih =>
      rw [List.flatMap_cons]
      simp only [ofByte, List.cons_append, List.nil_append, toBytes?, byte?_ofByte, ih]
      rfl

/-- Pairs of digits. -/
structure IsHex (h : Text) : Prop where
  even : h.length % 2 = 0
  digits : ∀ c ∈ h, c ∈ digits

theorem byte?_isSome_iff : (byte? high low).isSome ↔ lead high ∈ digits ∧ low ∈ digits := by
  rw [byte?_eq, ← value?_isSome_iff, ← value?_isSome_iff]
  cases value? (lead high) <;> cases value? low <;> simp

theorem toBytes?_isSome_iff : (toBytes? h).isSome ↔ IsHex (unsigned h) := by
  fun_induction toBytes? h with
  | case1 => exact iff_of_true rfl ⟨rfl, nofun⟩
  | case2 c => exact iff_of_false nofun fun isHex => absurd isHex.even (by simp [unsigned])
  | case3 high low rest ih =>
      have pair : (byte? high low).isSome ∧ (toBytes? rest).isSome ↔
          IsHex (unsigned (high :: low :: rest)) := by
        rw [byte?_isSome_iff, ih]
        constructor
        · rintro ⟨⟨first, second⟩, even, more⟩
          refine ⟨?_, List.forall_mem_cons.2 ⟨first, List.forall_mem_cons.2 ⟨second, more⟩⟩⟩
          simp only [unsigned, List.length_cons]
          omega
        · rintro ⟨even, all⟩
          obtain ⟨first, all⟩ := List.forall_mem_cons.1 all
          obtain ⟨second, more⟩ := List.forall_mem_cons.1 all
          simp only [unsigned, List.length_cons] at even
          exact ⟨⟨first, second⟩, by omega, more⟩
      rw [← pair]
      cases byte? high low <;> cases toBytes? rest <;> simp

theorem IsHex.noSign (isHex : IsHex h) : '+' ∉ h :=
  fun member => absurd (isHex.digits '+' member) (by decide)

/-- What is read is what is in pairs of digits, and the bytes are written like it. -/
def Exact (h : Text) : Prop :=
  ((toBytes? h).isSome ↔ IsHex h) ∧
    ∀ bytes, toBytes? h = some bytes → (ofBytes bytes).toList = h.map Text.lower

/-- A text is decoded exactly, unless it consists of pairs of digits but for plus signs that lead
pairs. These count as zeros. -/
theorem exact_iff (h : Text) :
    (Exact h ↔ ¬(IsHex (unsigned h) ∧ '+' ∈ h)) ∧ ((toBytes? h).isSome ↔ IsHex (unsigned h)) ∧
      ∀ bytes, toBytes? h = some bytes ↔
        (ofBytes bytes).toList = (unsigned h).map Text.lower := by
  refine ⟨?_, toBytes?_isSome_iff, fun _ => toBytes?_eq_some_iff⟩
  constructor
  · rintro ⟨reads, -⟩ ⟨isHex, sign⟩
    exact (reads.1 (toBytes?_isSome_iff.2 isHex)).noSign sign
  · intro none_
    by_cases sign : '+' ∈ h
    · have other : ¬IsHex (unsigned h) := fun isHex => none_ ⟨isHex, sign⟩
      rw [← toBytes?_isSome_iff, Option.not_isSome_iff_eq_none] at other
      refine ⟨?_, fun bytes read => by rw [other] at read; cases read⟩
      rw [other]
      exact iff_of_false nofun fun isHex => isHex.noSign sign
    · have same := unsigned_eq sign
      refine ⟨by rw [toBytes?_isSome_iff, same], fun bytes read => ?_⟩
      rw [toBytes?_eq_some_iff.1 read, same]

/-- A plus sign is taken for a digit. -/
theorem exact_signed : toBytes? ['+', 'f'] = some [15] ∧ ¬Exact ['+', 'f'] := by
  have read : toBytes? ['+', 'f'] = some [15] := by decide
  refine ⟨read, fun exact_ => ?_⟩
  have isHex := exact_.1.1 (by rw [read]; rfl)
  exact isHex.noSign (by decide)

end SqlUnits.Hex
