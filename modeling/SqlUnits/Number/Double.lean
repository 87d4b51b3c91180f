import SqlUnits.Number.Integer
import SqlUnits.Number.Natural
/-!
Numbers of IEEE 754 double precision, kept as their bits. Every operation goes through exact
integers: a finite number is `mantissa * 2 ^ exponent`, and `ofRatio` rounds a quotient to the
nearest number, a tie to the even mantissa.
-/

namespace SqlUnits

structure Double where
  bits : UInt64
deriving DecidableEq

namespace Double

inductive Parts where
  | finite (negative : Bool) (mantissa : Nat) (exponent : Int)
  | infinite (negative : Bool)
  | nan

def isNegative (d : Double) : Bool :=
  d.bits.toNat ≥ twoPow 63

def parts (d : Double) : Parts :=
  let n := d.bits.toNat % twoPow 63
  let field : Nat := n / twoPow 52
  let fraction : Nat := n % twoPow 52
  if field = 2047 then if fraction = 0 then .infinite d.isNegative else .nan
  else if field = 0 then .finite d.isNegative fraction (-1074)
  else .finite d.isNegative (twoPow 52 + fraction) ((field : Int) - 1075)

def ofFields (negative : Bool) (magnitude : Nat) : Double :=
  ⟨UInt64.ofNat (if negative then twoPow 63 + magnitude else magnitude)⟩

def zero : Double := ⟨0⟩

def infinity (negative : Bool) : Double :=
  ofFields negative (2047 * twoPow 52)

def nan : Double := ofFields false (2047 * twoPow 52 + twoPow 51)

/-- A quotient rounded to a whole number, a half to the even neighbour. -/
def divNearest (n d : Nat) : Nat :=
  let q := n / d
  let r := n % d
  if 2 * r < d then q else if 2 * r > d then q + 1 else q + q % 2

/-- `num * 2 ^ (-e) / den` as a quotient of naturals. -/
def scaled (num den : Nat) (e : Int) : Nat × Nat :=
  if 0 ≤ e then (num, den * twoPow e.toNat) else (num * twoPow (-e).toNat, den)

/-- The exponent at which a quotient has a mantissa of 53 bits, or the least exponent. -/
def exponentOf (num den : Nat) : Int :=
  let guess : Int := (num.log2 : Int) - den.log2 - 52
  let (n, d) := scaled num den guess
  let e := if n < d * twoPow 52 then guess - 1 else guess
  max e (-1074)

def ofRatio (negative : Bool) (num den : Nat) : Double :=
  if num = 0 || den = 0 then ofFields negative 0
  else
    let e := exponentOf num den
    let (n, d) := scaled num den e
    let q := divNearest n d
    let magnitude := if q < twoPow 52 then q else (e + 1074).toNat * twoPow 52 + q
    if magnitude ≥ 2047 * twoPow 52 then infinity negative else ofFields negative magnitude

def ofInt (n : Int) : Double :=
  ofRatio (n < 0) n.natAbs 1

/-- The number nearest to `digits * 10 ^ exponent`. -/
def ofDecimal (negative : Bool) (digits : Nat) (exponent : Int) : Double :=
  if digits = 0 then ofFields negative 0
  else
    let size := (digits.log2 : Int) * 3 / 10 + exponent
    if size > 400 then infinity negative
    else if size < -500 then ofFields negative 0
    else if 0 ≤ exponent then ofRatio negative (digits * tenPow exponent.toNat) 1
    else ofRatio negative digits (tenPow (-exponent).toNat)

/-- A decimal number as it stands at the head of a text. -/
structure Literal where
  negative : Bool
  digits : Nat
  exponent : Int
  /-- Without a fraction and an exponent. -/
  whole : Bool
  rest : Text

def exponentPart (cs : Text) : Option (Int × Text) :=
  match cs with
  | e :: more =>
      if e == 'e' || e == 'E' then
        let (negative, more) :=
          match more with
          | '-' :: m => (true, m)
          | '+' :: m => (false, m)
          | m => (false, m)
        let ds := more.takeWhile Text.isDigit
        if ds.isEmpty then none
        else
          let n : Int := Text.natOfDigits ds
          some (if negative then -n else n, more.drop ds.length)
      else none
  | [] => none

/-- Sign, digits with an optional point, optional exponent; at least one digit before the exponent. -/
def literal? (cs : Text) : Option Literal :=
  let (negative, cs) :=
    match cs with
    | '-' :: rest => (true, rest)
    | '+' :: rest => (false, rest)
    | _ => (false, cs)
  let whole := cs.takeWhile Text.isDigit
  let rest := cs.drop whole.length
  let (hasPoint, fraction, rest) :=
    match rest with
    | '.' :: more =>
        let ds := more.takeWhile Text.isDigit
        (true, ds, more.drop ds.length)
    | _ => (false, [], rest)
  if whole.isEmpty && fraction.isEmpty then none
  else
    let digits := Text.natOfDigits (whole ++ fraction)
    let point : Int := -(fraction.length : Int)
    match exponentPart rest with
    | some (e, after) => some ⟨negative, digits, e + point, false, after⟩
    | none => some ⟨negative, digits, point, !hasPoint, rest⟩

/-- A text that is one decimal number and nothing else. -/
def ofText? (cs : Text) : Option Double := do
  let l ← literal? cs
  if l.rest.isEmpty then some (ofDecimal l.negative l.digits l.exponent) else none

/-- The sign and the exact magnitude as a quotient; `none` unless finite. -/
def ratio? (d : Double) : Option (Bool × Nat × Nat) :=
  match d.parts with
  | .finite s m e => some (s, if 0 ≤ e then (m * twoPow e.toNat, 1) else (m, twoPow (-e).toNat))
  | _ => none

def isNan (d : Double) : Bool :=
  match d.parts with
  | .nan => true
  | _ => false

def neg (d : Double) : Double :=
  ofFields (!d.isNegative) (d.bits.toNat % twoPow 63)

def signed (negative : Bool) (n : Nat) : Int :=
  if negative then -(n : Int) else n

def isInfinite (d : Double) : Bool :=
  match d.parts with
  | .infinite _ => true
  | _ => false

def add (a b : Double) : Double :=
  match a.ratio?, b.ratio? with
  | some (sa, na, da), some (sb, nb, db) =>
      let n := signed sa (na * db) + signed sb (nb * da)
      ofRatio (if n = 0 then sa && sb else n < 0) n.natAbs (da * db)
  | _, _ =>
      if a.isNan || b.isNan then nan
      else if a.isInfinite && b.isInfinite && a.isNegative != b.isNegative then nan
      else if a.isInfinite then a else b

def sub (a b : Double) : Double :=
  a.add b.neg

def mul (a b : Double) : Double :=
  let s := a.isNegative != b.isNegative
  match a.ratio?, b.ratio? with
  | some (_, na, da), some (_, nb, db) => ofRatio s (na * nb) (da * db)
  | some (_, 0, _), none => nan
  | none, some (_, 0, _) => nan
  | _, _ => if a.isNan || b.isNan then nan else infinity s

/-- Division; by zero it gives no number. -/
def div? (a b : Double) : Option Double :=
  let s := a.isNegative != b.isNegative
  match a.ratio?, b.ratio? with
  | _, some (_, 0, _) => none
  | some (_, na, da), some (_, nb, db) => some (ofRatio s (na * db) (da * nb))
  | none, some _ => if a.isNan then some nan else some (infinity s)
  | some _, none => if b.isNan then some nan else some (ofFields s 0)
  | none, none => some nan

/-- The order of numbers, infinities included; numbers that are no numbers come first. -/
def compare (a b : Double) : Ordering :=
  match a.ratio?, b.ratio? with
  | some (sa, na, da), some (sb, nb, db) =>
      Ord.compare (signed sa (na * db)) (signed sb (nb * da))
  | _, _ =>
      if a.isNan then if b.isNan then .eq else .lt
      else if b.isNan then .gt
      else if a.bits == b.bits then .eq
      else if a.isInfinite then if a.isNegative then .lt else .gt
      else if b.isNegative then .gt else .lt

/-- The whole part, the fraction cut off. -/
def truncate? (d : Double) : Option Int :=
  d.ratio?.map fun (s, n, m) => signed s (n / m)

/-- The integer that a number is, if it is one. -/
def toInt? (d : Double) : Option Int :=
  match d.ratio? with
  | some (s, n, m) => if n % m = 0 then some (signed s (n / m)) else none
  | none => none

end Double

end SqlUnits
