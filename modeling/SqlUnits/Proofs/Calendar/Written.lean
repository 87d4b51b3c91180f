import Mathlib.Algebra.Group.Nat.Defs
import Mathlib.Data.List.Basic
import SqlUnits.Calendar.Written
import SqlUnits.Proofs.Text.Run
/-!
Dates and times are read back from the forms in which they are written. One lemma for each kind of
item says what it reads from its own text, whatever stands behind; a form reads its items in turn.
-/

namespace SqlUnits

namespace Calendar

/-! Digits. -/

theorem isDigit_of_mem_digits {width n : Nat} {c : Char} (member : c ∈ digits width n) :
    Text.isDigit c = true := by
  rcases List.mem_append.1 member with zero | digit
  · rw [List.eq_of_mem_replicate zero]
    decide
  · exact Text.isDigit_of_mem_toDigits digit

/-- A number begins with a digit. -/
theorem digits_eq_cons (width n : Nat) :
    ∃ c more, digits width n = c :: more ∧ Text.isDigit c = true := by
  have notEmpty : digits width n ≠ [] := List.append_ne_nil_of_right_ne_nil _ Nat.toDigits_ne_nil
  obtain ⟨c, more, shape⟩ := List.exists_cons_of_ne_nil notEmpty
  have member : c ∈ digits width n := by simp [shape]
  exact ⟨c, more, shape, isDigit_of_mem_digits member⟩

theorem length_digits {width n : Nat} (positive : 0 < width) (fits : n < 10 ^ width) :
    (digits width n).length = width := by
  have least : (Nat.toDigits 10 n).length ≤ width :=
    (Nat.length_toDigits_le_iff (by decide) positive).2 fits
  simp only [digits, List.length_append, List.length_replicate]
  omega

theorem natOfDigits_digits (width n : Nat) : Text.natOfDigits (digits width n) = n := by
  change Nat.ofDigitChars 10 (digits width n) 0 = n
  rw [digits, Nat.ofDigitChars_append, Nat.ofDigitChars_replicate_zero, Nat.mul_zero]
  exact Nat.ofDigitChars_ten_toDigits

variable {width n : Nat} {rest : Text}

theorem head?_digits (width n : Nat) (rest : Text) :
    (digits width n ++ rest).head?.any Text.isBlank = false := by
  obtain ⟨c, more, shape, digit⟩ := digits_eq_cons width n
  simpa [shape] using Text.isBlank_of_isDigit digit

theorem getLast?_digits {cs : Text} (ends : digits width n <:+ cs) :
    cs.getLast?.any Text.isBlank = false := by
  obtain ⟨before, rfl⟩ := ends
  obtain ⟨c, more, shape, _⟩ := digits_eq_cons width n
  have notEmpty : digits width n ≠ [] := by simp [shape]
  rw [List.getLast?_append_of_ne_nil before notEmpty, List.getLast?_eq_some_getLast notEmpty]
  have member : (digits width n).getLast notEmpty ∈ digits width n := List.getLast_mem notEmpty
  simpa using Text.isBlank_of_isDigit (isDigit_of_mem_digits member)

theorem trimStart_digits (width n : Nat) (rest : Text) :
    Text.trimStart (digits width n ++ rest) = digits width n ++ rest :=
  Text.dropWhile_stopped (head?_digits width n rest)

/-- A number whose digits are taken as they were written. -/
theorem readNumber_digits {most : Option Nat} (small : n < twoPow 63)
    (taken : most.elim id List.take ((digits width n ++ rest).takeWhile Text.isDigit) =
      digits width n) :
    readNumber most (digits width n ++ rest) = .ok (n, rest) := by
  obtain ⟨c, more, shape, digit⟩ := digits_eq_cons width n
  have drop : (digits width n ++ rest).drop (digits width n).length = rest := List.drop_left
  have value := natOfDigits_digits width n
  rw [shape, List.cons_append] at taken drop ⊢
  rw [shape] at value
  simp only [readNumber, digit, Bool.not_true, Bool.false_eq_true, if_false]
  cases most with
  | none | some w =>
      dsimp only [Option.elim, id] at taken
      simp only [taken, value, small, if_true, drop]

theorem readNumber_width (positive : 0 < width) (fits : n < 10 ^ width) (small : n < twoPow 63)
    (rest : Text) : readNumber (some width) (digits width n ++ rest) = .ok (n, rest) := by
  apply readNumber_digits small
  dsimp only [Option.elim]
  rw [List.takeWhile_append_of_pos fun _ => isDigit_of_mem_digits,
    List.take_left' (length_digits positive fits)]

/-- A number, followed by something else than a digit. -/
theorem readNumber_stopped (small : n < twoPow 63)
    (stops : rest.head?.any Text.isDigit = false) :
    readNumber none (digits width n ++ rest) = .ok (n, rest) :=
  readNumber_digits small (Text.takeWhile_run (fun _ => isDigit_of_mem_digits) stops)

/-! Items. -/

/-- Fields within the bounds in which items are read. -/
structure Fields.Bounded (fields : Fields) : Prop where
  year : fields.year.natAbs < twoPow 31
  month : 1 ≤ fields.month ∧ fields.month ≤ 12
  day : 1 ≤ fields.day ∧ fields.day ≤ 31
  hour : fields.hour ≤ 23
  minute : fields.minute ≤ 59
  second : fields.second ≤ 59
  nano : fields.nano < 1000000000 ∨ fields.nano < 2000000000 ∧ fields.second = 59

/-- The part of `fields` that an item carries over. -/
def Item.restore (fields into : Fields) : Item → Fields
  | year => { into with year := fields.year }
  | month => { into with month := fields.month }
  | day => { into with day := fields.day }
  | hour => { into with hour := fields.hour }
  | minute => { into with minute := fields.minute }
  | second =>
      { into with
        second := fields.second
        nano := if fields.nano < 1000000000 then into.nano else 1000000000 }
  | fraction => { into with nano := into.nano + fields.nano % 1000000000 }
  | blanks => into
  | mark _ => into

/-- What may stand behind an item. -/
def Item.Stops (rest : Text) : Item → Prop
  | year => rest.head?.any Text.isDigit = false
  | fraction => rest.head?.any (fun c => Text.isDigit c || c == '.') = false
  | blanks => rest.head?.any Text.isBlank = false
  | _ => True

variable {fields : Fields}

theorem twoPow_31 : twoPow 31 = 2147483648 := rfl

theorem twoPow_63 : twoPow 63 = 9223372036854775808 := rfl

theorem readBounded_digits {low high : Nat} (bounds : low ≤ n ∧ n ≤ high) (two : high < 100)
    (rest : Text) : readBounded low high (digits 2 n ++ rest) = .ok (n, rest) := by
  have small : n < twoPow 63 := by rw [twoPow_63]; omega
  have read : readNumber (some 2) (digits 2 n ++ rest) = .ok (n, rest) :=
    readNumber_width (by decide) (by omega) small rest
  simp [readBounded, read, bounds, bind, Except.bind, pure, Except.pure]

theorem readYear_write {year : Int} (small : year.natAbs < twoPow 31)
    (stops : rest.head?.any Text.isDigit = false) :
    readYear (writeYear year ++ rest) = .ok (year, rest) := by
  have word : year.natAbs < twoPow 63 := by
    rw [twoPow_31] at small
    rw [twoPow_63]
    omega
  have bounds : -(twoPow 31 : Int) ≤ year ∧ year < twoPow 31 := by omega
  unfold writeYear
  split
  case isTrue plain =>
    simp only [Bool.and_eq_true, decide_eq_true_eq] at plain
    have read : readNumber (some 4) (digits 4 year.natAbs ++ rest) = .ok (year.natAbs, rest) :=
      readNumber_width (by decide) (by omega) word rest
    have same : (year.natAbs : Int) = year := by omega
    obtain ⟨c, more, shape, digit⟩ := digits_eq_cons 4 year.natAbs
    rw [shape, List.cons_append] at read ⊢
    unfold readYear
    split
    · next sign =>
        cases sign
        exact absurd digit (by decide)
    · next sign =>
        cases sign
        exact absurd digit (by decide)
    · simp only [read, same, bind, Except.bind, pure, Except.pure, bounds, decide_true,
        Bool.and_self, if_true]
  case isFalse signed =>
    have read : readNumber none (digits 4 year.natAbs ++ rest) = .ok (year.natAbs, rest) :=
      readNumber_stopped word stops
    by_cases negative : year < 0
    · have same : -(year.natAbs : Int) = year := by omega
      simp only [negative, if_true, List.cons_append, readYear, read, same, bind, Except.bind,
        pure, Except.pure, bounds, decide_true, Bool.and_self]
    · have same : (year.natAbs : Int) = year := by omega
      simp only [negative, if_false, List.cons_append, readYear, read, same, bind, Except.bind,
        pure, Except.pure, bounds, decide_true, Bool.and_self, if_true]

theorem head?_writeYear (year : Int) (rest : Text) :
    (writeYear year ++ rest).head?.any Text.isBlank = false := by
  unfold writeYear
  split
  · exact head?_digits 4 year.natAbs rest
  · split <;> rfl

theorem readFraction_digits (positive : 0 < width) (few : width ≤ 9) (fits : n < 10 ^ width)
    (stops : rest.head?.any Text.isDigit = false) :
    readFraction (digits width n ++ rest) = .ok (n * 10 ^ (9 - width), rest) := by
  have length := length_digits positive fits
  have small : n < twoPow 63 := by
    have : 10 ^ width ≤ 10 ^ 9 := Nat.pow_le_pow_right (by decide) few
    rw [twoPow_63]
    omega
  have run : (digits width n ++ rest).takeWhile Text.isDigit = digits width n :=
    Text.takeWhile_run (fun _ => isDigit_of_mem_digits) stops
  have read : readNumber (some 9) (digits width n ++ rest) = .ok (n, rest) := by
    apply readNumber_digits small
    dsimp only [Option.elim]
    rw [run, List.take_of_length_le (by omega)]
  have used : (digits width n ++ rest).length - rest.length = width := by
    rw [List.length_append, length]
    omega
  simp only [readFraction, read, bind, Except.bind, used, Text.dropWhile_stopped stops, pure,
    Except.pure]
  rfl

/-- A fraction has three, six or nine digits, or none. -/
theorem writeFraction_cases {nano : Nat} (least : nano < 1000000000) :
    nano = 0 ∧ writeFraction nano = [] ∨
      ∃ width m, 0 < width ∧ width ≤ 9 ∧ m < 10 ^ width ∧ m * 10 ^ (9 - width) = nano ∧
        writeFraction nano = '.' :: digits width m := by
  unfold writeFraction
  split
  · exact .inl ⟨‹_›, rfl⟩
  · right
    split
    · exact ⟨3, nano / 1000000, by decide, by decide, by omega, by omega, rfl⟩
    · split
      · exact ⟨6, nano / 1000, by decide, by decide, by omega, by omega, rfl⟩
      · exact ⟨9, nano, by decide, by decide, by omega, by omega, rfl⟩

/-- An item reads what it has written. -/
theorem Item.read_write (bounded : fields.Bounded) (into : Fields) {item : Item}
    (stops : item.Stops rest) :
    item.read into (item.write fields ++ rest) = .ok (item.restore fields into, rest) := by
  cases item with
  | year =>
      have solid : Text.trimStart (writeYear fields.year ++ rest) =
          writeYear fields.year ++ rest := Text.dropWhile_stopped (head?_writeYear _ rest)
      simp only [read, write, solid, readYear_write bounded.year stops, bind, Except.bind, pure,
        Except.pure, restore]
  | month =>
      simp only [read, write, trimStart_digits, readBounded_digits bounded.month (by decide), bind,
        Except.bind, pure, Except.pure, restore]
  | day =>
      simp only [read, write, trimStart_digits, readBounded_digits bounded.day (by decide), bind,
        Except.bind, pure, Except.pure, restore]
  | hour =>
      simp only [read, write, trimStart_digits,
        readBounded_digits ⟨Nat.zero_le _, bounded.hour⟩ (by decide), bind,
        Except.bind, pure, Except.pure, restore]
  | minute =>
      simp only [read, write, trimStart_digits,
        readBounded_digits ⟨Nat.zero_le _, bounded.minute⟩ (by decide), bind,
        Except.bind, pure, Except.pure, restore]
  | second =>
      have most : fields.second + fields.nano / 1000000000 ≤ 60 := by
        have second := bounded.second
        have nano := bounded.nano
        omega
      simp only [read, write, trimStart_digits,
        readBounded_digits ⟨Nat.zero_le _, most⟩ (by decide),
        bind, Except.bind, pure, Except.pure, restore]
      by_cases plain : fields.nano < 1000000000
      · have whole : fields.nano / 1000000000 = 0 := by omega
        have second : fields.second ≠ 60 := by
          have := bounded.second
          omega
        simp only [whole, Nat.add_zero, second, if_false, plain, if_true]
      · obtain ⟨nano, second⟩ := bounded.nano.resolve_left plain
        have leap : fields.second + fields.nano / 1000000000 = 60 := by omega
        rw [if_pos leap, if_neg plain, second]
  | fraction =>
      have least : fields.nano % 1000000000 < 1000000000 := Nat.mod_lt _ (by decide)
      simp only [write]
      rcases writeFraction_cases least with
        ⟨none, text⟩ | ⟨width, m, positive, few, fits, value, text⟩
      · rw [text, List.nil_append]
        simp only [read, restore, none, Nat.add_zero]
        split
        · simp [Stops] at stops
        · rfl
      · have digit : rest.head?.any Text.isDigit = false := by
          cases rest with
          | nil => rfl
          | cons c rest =>
              simp only [Stops, List.head?_cons, Option.any_some, Bool.or_eq_false_iff] at stops
              simpa using stops.1
        rw [text, List.cons_append]
        simp only [read, readFraction_digits positive few fits digit, bind, Except.bind, pure,
          Except.pure, restore, value]
  | blanks =>
      have solid : Text.trimStart (' ' :: rest) = rest := by
        have blank : Text.isBlank ' ' = true := by decide
        rw [Text.trimStart, List.dropWhile_cons_of_pos blank, Text.dropWhile_stopped stops]
      simp only [read, write, List.cons_append, List.nil_append, solid, pure, Except.pure, restore]
  | mark c => simp [read, write, restore, pure, Except.pure]

/-! Forms. -/

/-- What is written behind each item may stand there. -/
def Form.Readable (fields : Fields) : Form → Prop
  | [] => True
  | item :: form => item.Stops (form.flatMap (·.write fields)) ∧ Form.Readable fields form

/-- A form reads what it has written. -/
theorem readItems_write (bounded : fields.Bounded) {form : Form} (readable : form.Readable fields)
    (into : Fields) :
    readItems into form (form.flatMap (·.write fields)) =
      .ok (form.foldl (fun into item => item.restore fields into) into) := by
  induction form generalizing into with
  | nil => rfl
  | cons item form ih =>
      rw [List.flatMap_cons, readItems, Item.read_write bounded into readable.1]
      exact ih readable.2 _

theorem Form.read_write (bounded : fields.Bounded) {form : Form} (readable : form.Readable fields) :
    form.read (form.write fields).toList =
      .ok (form.foldl (fun into item => item.restore fields into) {}) := by
  rw [Form.write, String.toList_ofList]
  exact readItems_write bounded readable {}

theorem dateForm_readable (fields : Fields) : dateForm.Readable fields :=
  ⟨by rfl, trivial, trivial, trivial, trivial, trivial⟩

theorem timestampForm_readable (fields : Fields) : timestampForm.Readable fields := by
  have hour : (clockForm.flatMap (·.write fields)).head?.any Text.isBlank = false :=
    head?_digits 2 fields.hour _
  exact ⟨by rfl, trivial, trivial, trivial, trivial, hour, trivial, trivial, trivial, trivial,
    trivial, by rfl, trivial⟩

end Calendar

open Calendar

namespace Date

theorem bounds (date : Date) : -262143 ≤ date.year ∧ date.year ≤ 262142 ∧ 1 ≤ date.month ∧
    date.month ≤ 12 ∧ 1 ≤ date.day ∧ date.day ≤ 31 := by
  have valid := date.valid
  unfold isValid minYear maxYear at valid
  simp only [Bool.and_eq_true, decide_eq_true_eq] at valid
  obtain ⟨⟨⟨⟨⟨least, most⟩, january⟩, december⟩, first⟩, last⟩ := valid
  have month : daysInMonth date.year date.month ≤ 31 := by
    unfold daysInMonth
    repeat' split
    all_goals decide
  exact ⟨least, most, january, december, first, Nat.le_trans last month⟩

theorem fields_bounded (date : Date) : date.fields.Bounded := by
  obtain ⟨least, most, month⟩ := date.bounds
  refine ⟨?_, ⟨month.1, month.2.1⟩, month.2.2, ?_, ?_, ?_, ?_⟩
  · rw [twoPow_31]
    change date.year.natAbs < _
    omega
  · exact Nat.zero_le _
  · exact Nat.zero_le _
  · exact Nat.zero_le _
  · exact .inl (Nat.zero_lt_succ _)

theorem ofCalendar_eq_ok (date : Date) {fields : Fields} (year : fields.year = date.year)
    (month : fields.month = date.month) (day : fields.day = date.day) :
    ofCalendar fields = .ok date := by
  simp only [ofCalendar, year, month, day, ofFields?, date.valid, dif_pos]

/-- A date is read back as it was written. -/
theorem read_write (date : Date) : read date.write.toList = .ok date := by
  have form := Form.read_write date.fields_bounded (dateForm_readable date.fields)
  simp only [read, write, form, bind, Except.bind]
  exact ofCalendar_eq_ok date rfl rfl rfl

theorem trim_write (date : Date) : Text.trim date.write.toList = date.write.toList := by
  have text : date.write.toList = writeYear date.year ++
      '-' :: (digits 2 date.month ++ '-' :: digits 2 date.day) := by
    simp [write, Form.write, dateForm, Item.write, fields]
  apply Text.trim_of_solid
  · rw [text]
    exact head?_writeYear date.year _
  · have ends : digits 2 date.day <:+ date.write.toList :=
      ⟨writeYear date.year ++ '-' :: (digits 2 date.month ++ ['-']), by simp [text]⟩
    exact getLast?_digits ends

end Date

namespace Timestamp

theorem fields_bounded (t : Timestamp) : t.fields.Bounded := by
  have date := t.date.fields_bounded
  have valid := t.valid
  simp only [isTime, Bool.and_eq_true, Bool.or_eq_true, decide_eq_true_eq] at valid
  obtain ⟨⟨⟨hour, minute⟩, second⟩, nano⟩ := valid
  exact ⟨date.year, date.month, date.day, Nat.le_of_lt_succ hour, Nat.le_of_lt_succ minute,
    Nat.le_of_lt_succ second, nano⟩

theorem trim_write (t : Timestamp) : Text.trim t.write.toList = t.write.toList := by
  have least : t.nano % 1000000000 < 1000000000 := Nat.mod_lt _ (by decide)
  let before := writeYear t.date.year ++ '-' :: (digits 2 t.date.month ++ '-' ::
    (digits 2 t.date.day ++ ' ' :: (digits 2 t.hour ++ ':' :: (digits 2 t.minute ++ [':']))))
  have text : t.write.toList = before ++ (digits 2 (t.second + t.nano / 1000000000) ++
      writeFraction (t.nano % 1000000000)) := by
    simp [before, write, Form.write, timestampForm, dateForm, clockForm, Item.write, fields,
      Date.fields]
  apply Text.trim_of_solid
  · rw [text]
    simp only [before, List.append_assoc]
    exact head?_writeYear t.date.year _
  · rcases writeFraction_cases least with ⟨_, none⟩ | ⟨width, m, _, _, _, _, fraction⟩
    · have ends : digits 2 (t.second + t.nano / 1000000000) <:+ t.write.toList :=
        ⟨before, by rw [text, none, List.append_nil]⟩
      exact getLast?_digits ends
    · have ends : digits width m <:+ t.write.toList :=
        ⟨before ++ (digits 2 (t.second + t.nano / 1000000000) ++ ['.']), by simp [text, fraction]⟩
      exact getLast?_digits ends

/-- The second and the fraction together restore the nanoseconds. -/
theorem restored (t : Timestamp) :
    timestampForm.foldl (fun into item => item.restore t.fields into) {} = t.fields := by
  have nano : (if t.nano < 1000000000 then 0 else 1000000000) + t.nano % 1000000000 = t.nano := by
    have bounds : t.nano < 1000000000 ∨ t.nano < 2000000000 ∧ t.second = 59 :=
      t.fields_bounded.nano
    split <;> omega
  simp only [timestampForm, dateForm, clockForm, List.cons_append, List.nil_append,
    List.foldl_cons, List.foldl_nil, Item.restore]
  exact congrArg (fun nano => { t.fields with nano := nano }) nano

/-- A time is read back as it was written, be it within a leap second. -/
theorem read_write (t : Timestamp) : read t.write.toList = .ok t := by
  have form := Form.read_write t.fields_bounded (timestampForm_readable t.fields)
  have date : Date.ofCalendar t.fields = .ok t.date := t.date.ofCalendar_eq_ok rfl rfl rfl
  have time :
      ofFields? t.date t.fields.hour t.fields.minute t.fields.second t.fields.nano = some t :=
    dif_pos t.valid
  have whole : readAs timestampForm t.write.toList = .ok t := by
    simp only [readAs, write, form, restored, bind, Except.bind, date, time]
    rfl
  simp only [read, whole]

end Timestamp

end SqlUnits
