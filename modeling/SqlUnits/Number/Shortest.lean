import SqlUnits.Number.Double
import SqlUnits.Number.Natural
/-!
Decimal digits of doubles: the fewest that read back as the number, and a given count of them.
-/

namespace SqlUnits.Double

/-- A magnitude `digits * 10 ^ exponent`. -/
structure Decimal where
  digits : Nat
  exponent : Int

/-- The real numbers nearer to a double than to its neighbours, in quarters of its unit. -/
structure Interval where
  low : Nat
  high : Nat
  closed : Bool

def interval (mantissa : Nat) (exponent : Int) : Interval where
  low := if mantissa = twoPow 52 && exponent > -1074 then 4 * mantissa - 1 else 4 * mantissa - 2
  high := 4 * mantissa + 2
  closed := mantissa % 2 = 0

/-- One quarter of a unit of exponent `e`, over `10 ^ k`, as a quotient. -/
def gridRatio (e k : Int) : Nat × Nat :=
  (twoPow (e - 2).toNat * tenPow (-k).toNat, twoPow (2 - e).toNat * tenPow k.toNat)

/-- The point of the grid `10 ^ k` that reads back as the number and is nearest to it, if any. -/
def onGrid? (mantissa : Nat) (e k : Int) : Option Nat :=
  let (p, q) := gridRatio e k
  let i := interval mantissa e
  let inside (c : Nat) : Bool :=
    c > 0 && (if i.closed then i.low * p ≤ c * q && c * q ≤ i.high * p
      else i.low * p < c * q && c * q < i.high * p)
  let below := 4 * mantissa * p / q
  let above := below + 1
  match inside below, inside above with
  | true, true => some (if 2 * (4 * mantissa * p) ≤ (below + above) * q then below else above)
  | true, false => some below
  | false, true => some above
  | false, false => none

def searchGrid (mantissa : Nat) (e : Int) : Nat → Int → Decimal
  | 0, k => ⟨(gridRatio e k).1, k⟩
  | n + 1, k =>
      match onGrid? mantissa e k with
      | some c => ⟨c, k⟩
      | none => searchGrid mantissa e n (k - 1)

/-- The fewest digits that read back as `mantissa * 2 ^ e`. -/
def shortest (mantissa : Nat) (e : Int) : Decimal :=
  if mantissa = 0 then ⟨0, 0⟩
  else searchGrid mantissa e 64 (((mantissa.log2 : Int) + e) * 3 / 10 + 3)

/-- Digits written with a point and as many zeros as they need, never with an exponent. -/
def Decimal.positional (d : Decimal) : Text :=
  let ds := Nat.toDigits 10 d.digits
  if 0 ≤ d.exponent then ds ++ List.replicate d.exponent.toNat '0'
  else
    let places := (-d.exponent).toNat
    let padded := List.replicate (places + 1 - ds.length) '0' ++ ds
    padded.take (padded.length - places) ++ '.' :: padded.drop (padded.length - places)

/-- The plain text of a double: fewest digits, positional, without a fraction when it is whole. -/
def toText (d : Double) : String :=
  match d.parts with
  | .nan => "NaN"
  | .infinite s => if s then "-inf" else "inf"
  | .finite s m e =>
      let body := String.ofList (shortest m e).positional
      if s then "-" ++ body else body

/-- A quotient rounded to a whole number, a half upwards. -/
def divHalfUp (n d : Nat) : Nat :=
  (2 * n + d) / (2 * d)

/-- Scales `num / den` down to `count` digits before the point, from a first guess of its size. -/
def significantFrom (num den count : Nat) : Nat → Int → Decimal
  | 0, k => ⟨0, k⟩
  | n + 1, k =>
      let c := divHalfUp (num * tenPow (-k).toNat) (den * tenPow k.toNat)
      if c < tenPow (count - 1) then significantFrom num den count n (k - 1)
      else if c ≥ tenPow count then significantFrom num den count n (k + 1)
      else ⟨c, k⟩

/-- The `count` leading digits of a positive quotient, rounded. -/
def significant (num den count : Nat) : Decimal :=
  let size : Int := (num.log2 : Int) - den.log2
  significantFrom num den count 64 (size * 3 / 10 - count)

def stripZeros (digits : Text) : Text :=
  (digits.reverse.dropWhile (· == '0')).reverse

/-- The text a database gives a real: fifteen digits at most, always with a point, and an
exponent when the first digit is below `1e-4` or above the fifteenth place. -/
def toSqlText (d : Double) : String :=
  match d.ratio? with
  | none => if d.isNan then "" else if d.isNegative then "-Inf" else "Inf"
  | some (s, n, m) =>
      if n = 0 then "0.0"
      else
        let dec := significant n m 15
        let first : Int := dec.exponent + 14
        let ds := stripZeros (Nat.toDigits 10 dec.digits)
        let sign := if s then ['-'] else []
        let tail (frac : Text) : Text := '.' :: (if frac.isEmpty then ['0'] else frac)
        if first < -4 || first > 15 - 1 then
          let e := first.natAbs
          let es := Nat.toDigits 10 e
          let es := if es.length < 2 then '0' :: es else es
          let mark := if first < 0 then '-' else '+'
          String.ofList (sign ++ ds.take 1 ++ tail (ds.drop 1) ++ 'e' :: mark :: es)
        else if first < 0 then
          let zeros := List.replicate (first.natAbs - 1) '0'
          String.ofList (sign ++ '0' :: tail (zeros ++ ds))
        else
          let k := first.toNat + 1
          let whole := ds.take k ++ List.replicate (k - ds.length) '0'
          String.ofList (sign ++ whole ++ tail (ds.drop k))

end SqlUnits.Double
