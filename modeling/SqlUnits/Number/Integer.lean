import SqlUnits.Text.Ascii
/-!
Decimal integers, and the two widths that values have.
-/

namespace SqlUnits

/-- One or more digits after an optional sign. -/
def Text.toInt? (cs : Text) : Option Int :=
  let (negative, digits) :=
    match cs with
    | '-' :: rest => (true, rest)
    | '+' :: rest => (false, rest)
    | _ => (false, cs)
  if digits.isEmpty || !digits.all Text.isDigit then none
  else
    let n : Int := Text.natOfDigits digits
    some (if negative then -n else n)

/-- An integer that has 32 bits, sign included. -/
def int32? (n : Int) : Option Int32 :=
  if Int32.minValue.toInt ≤ n ∧ n ≤ Int32.maxValue.toInt then some (Int32.ofInt n) else none

/-- An integer that has 64 bits, sign included. -/
def int64? (n : Int) : Option Int64 :=
  if Int64.minValue.toInt ≤ n ∧ n ≤ Int64.maxValue.toInt then some (Int64.ofInt n) else none

/-- A decimal count without a minus sign, below `bound`. -/
def Text.toNatBelow? (bound : Nat) (cs : Text) : Option Nat := do
  let digits := match cs with
    | '+' :: rest => rest
    | _ => cs
  if digits.isEmpty || !digits.all Text.isDigit then none
  else
    let n := Text.natOfDigits digits
    if n < bound then some n else none

end SqlUnits
