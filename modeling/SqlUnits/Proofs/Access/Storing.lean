import SqlUnits.Access.Mapper
import SqlUnits.Proofs.Calendar.Written
import SqlUnits.Proofs.Number.Integer
import SqlUnits.Proofs.Shape.Covering
import SqlUnits.Value.Convert
/-!
Values of built-in types are read back from their stored forms. A type to which the type of a value
widens takes it for a placeholder and reads it as the value that a field of that type is given.
-/

namespace SqlUnits

namespace Value

theorem parseDate_write (d : Date) : parseDate d.write = .ok (.date d) := by
  simp only [parseDate, d.trim_write, d.read_write]

theorem parseTimestamp_write (t : Timestamp) : parseTimestamp t.write = .ok (.timestamp t) := by
  simp only [parseTimestamp, t.trim_write, t.read_write]

variable {v : Value} {actual type : ValueType}

theorem store_eq_ok (has : v.type? = some actual) : ∃ stored, v.store = .ok stored := by
  cases v <;> cases has <;> exact ⟨_, rfl⟩

theorem convert_same (has : v.type? = some actual) : v.convert actual.target = .ok v := by
  cases v <;> cases has <;> rfl

/-- A value is read back as its own type. -/
theorem readAs_store (has : v.type? = some actual) {stored : Stored}
    (kept : v.store = .ok stored) : stored.readAs actual = .ok v := by
  cases v with
  | null | composite _ | descriptor _ => cases has
  | bool b =>
      cases has
      obtain rfl := Except.ok.inj kept
      unfold Stored.readAs Stored.ofBool
      cases b <;> simp
  | int n =>
      cases has
      obtain rfl := Except.ok.inj kept
      unfold Stored.readAs
      simp only [Int32.toInt_toInt64, int32?_toInt]
  | date d =>
      cases has
      obtain rfl := Except.ok.inj kept
      unfold Stored.readAs
      simp only [Stored.text?, Stored.readText, parseDate_write]
  | timestamp t =>
      cases has
      obtain rfl := Except.ok.inj kept
      unfold Stored.readAs
      simp only [Stored.text?, Stored.readText, parseTimestamp_write]
  | long n | double d | text s | bytes b =>
      cases has
      obtain rfl := Except.ok.inj kept
      unfold Stored.readAs
      rfl

/-- A number is read as a wider one, the one that it converts to. -/
theorem readAs_store_wider (has : v.type? = some actual) {low high : Nat}
    (here : actual.rank? = some low) (there : type.rank? = some high) (le : low ≤ high)
    {stored : Stored} (kept : v.store = .ok stored) :
    ∃ w, v.convert type.target = .ok w ∧ stored.readAs type = .ok w := by
  by_cases same : actual = type
  · subst same
    exact ⟨v, convert_same has, readAs_store has kept⟩
  · cases v with
    | int n =>
        cases has
        obtain rfl := Except.ok.inj kept
        cases type with
        | int => exact absurd rfl same
        | long => exact ⟨.long n.toInt64, rfl, by unfold Stored.readAs; rfl⟩
        | double =>
            refine ⟨.double (Double.ofInt n.toInt), rfl, ?_⟩
            unfold Stored.readAs
            simp only [Int32.toInt_toInt64]
        | _ => cases there
    | long n =>
        cases has
        obtain rfl := Except.ok.inj kept
        cases here
        cases type with
        | int =>
            cases there
            exact absurd le (by decide)
        | long => exact absurd rfl same
        | double => exact ⟨.double (Double.ofInt n.toInt), rfl, by unfold Stored.readAs; rfl⟩
        | _ => cases there
    | double d =>
        cases has
        cases here
        cases type with
        | int | long =>
            cases there
            exact absurd le (by decide)
        | double => exact absurd rfl same
        | _ => cases there
    | bool _ | text _ | bytes _ | date _ | timestamp _ =>
        cases has
        cases here
    | null | composite _ | descriptor _ => cases has

end Value

/-- In a leap second of a year with five digits. -/
def Timestamp.farLeap : Timestamp where
  date := { year := 12345, month := 12, day := 31 }
  hour := 23
  minute := 59
  second := 59
  nano := 1250000000

end SqlUnits
