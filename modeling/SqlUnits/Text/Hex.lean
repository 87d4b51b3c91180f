import SqlUnits.Text.Ascii
/-!
Bytes as pairs of hexadecimal digits.
-/

namespace SqlUnits.Hex

def digit (n : Nat) : Char :=
  if n < 10 then Char.ofNat (48 + n) else Char.ofNat (87 + n)

def value? (c : Char) : Option Nat :=
  if Text.isDigit c then some (c.toNat - 48)
  else if 'a' ≤ c && c ≤ 'f' then some (c.toNat - 87)
  else if 'A' ≤ c && c ≤ 'F' then some (c.toNat - 55)
  else none

def ofByte (b : UInt8) : Text :=
  [digit (b.toNat / 16), digit (b.toNat % 16)]

def ofBytes (bytes : List UInt8) : String :=
  String.ofList (bytes.flatMap ofByte)

/-- Two digits make a byte; a plus sign may stand for the first of them. -/
def byte? (high low : Char) : Option UInt8 :=
  if high = '+' then (value? low).map UInt8.ofNat
  else do
    let h ← value? high
    let l ← value? low
    pure (UInt8.ofNat (16 * h + l))

def toBytes? : Text → Option (List UInt8)
  | [] => some []
  | [_] => none
  | high :: low :: rest => do
      let b ← byte? high low
      let bs ← toBytes? rest
      pure (b :: bs)

/-- The lowest `width` digits of a number. -/
def ofNat (width n : Nat) : Text :=
  ((List.range width).map fun i => digit (n / Nat.pow 16 i % 16)).reverse

def toNat? (cs : Text) : Option Nat :=
  if cs.isEmpty then none
  else cs.foldlM (fun n c => (value? c).map (16 * n + ·)) 0

end SqlUnits.Hex
