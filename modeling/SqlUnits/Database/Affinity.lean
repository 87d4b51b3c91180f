import SqlUnits.Database.Stored
import SqlUnits.Text.Ascii
/-!
Affinities: what a column makes of the values stored in it, and what a comparison makes of the
values it compares. Also the numbers that texts stand for, and the order of stored values.
-/

namespace SqlUnits

inductive Affinity where
  | blob
  | text
  | numeric
  | integer
  | real
deriving DecidableEq

namespace Affinity

/-- The affinity of a declared type, by the words it contains. -/
def ofType (type : String) : Affinity :=
  let cs := type.toList.map Text.upper
  let has (w : String) : Bool := Text.contains cs w.toList
  if has "INT" then integer
  else if has "CHAR" || has "CLOB" || has "TEXT" then text
  else if has "BLOB" || cs.isEmpty then blob
  else if has "REAL" || has "FLOA" || has "DOUB" then real
  else numeric

def isNumeric : Affinity → Bool
  | numeric => true
  | integer => true
  | real => true
  | _ => false

end Affinity

namespace Stored

def isSpace (c : Char) : Bool :=
  c == ' ' || (9 ≤ c.toNat && c.toNat ≤ 13)

/-- What a text says as a number. -/
structure NumberReading where
  value : Stored
  /-- Nothing but the number and blanks around it. -/
  complete : Bool

/-- A real that is whole, as an integer; both ends of the range stay real. -/
def ofWhole (d : Double) : Stored :=
  match d.toInt? with
  | some n =>
      if Int64.minValue.toInt < n ∧ n < Int64.maxValue.toInt then .ofInt n else .real d
  | none => .real d

/-- The number at the head of a text; zero when there is none. -/
def readNumber (cs : Text) : NumberReading :=
  match Double.literal? (cs.dropWhile isSpace) with
  | none => ⟨.integer 0, false⟩
  | some l =>
      let complete := l.rest.all isSpace
      let n := Double.signed l.negative l.digits
      if l.whole && Int64.minValue.toInt ≤ n && n ≤ Int64.maxValue.toInt then
        ⟨.ofInt n, complete⟩
      else ⟨.real (Double.ofDecimal l.negative l.digits l.exponent), complete⟩

/-- The bytes of a text as characters of one byte each, as far as numbers need them. -/
def narrow (bytes : List UInt8) : Text :=
  bytes.map fun b => Char.ofNat b.toNat

/-- The characters in which a number is looked for. -/
def numberText? : Stored → Option Text
  | .text s => some s.toList
  | .brokenText b => some (narrow b)
  | .blob b => some (narrow b)
  | _ => none

/-- The number that a value is taken for in arithmetic. -/
def toNumber (v : Stored) : Stored :=
  match v.numberText? with
  | some cs => (readNumber cs).value
  | none => v

def clampInt (n : Int) : Int64 :=
  if n < Int64.minValue.toInt then Int64.minValue
  else if Int64.maxValue.toInt < n then Int64.maxValue
  else Int64.ofInt n

/-- The whole part of a real, kept in range. -/
def wholePart (d : Double) : Int64 :=
  match d.truncate? with
  | some n => clampInt n
  | none =>
      if d.isNan then 0 else if d.isNegative then Int64.minValue else Int64.maxValue

/-- The integer that a value is taken for. -/
def toInteger (v : Stored) : Int64 :=
  match v.numberText? with
  | some cs =>
      let cs := cs.dropWhile isSpace
      let (negative, digits) :=
        match cs with
        | '-' :: rest => (true, rest)
        | '+' :: rest => (false, rest)
        | _ => (false, cs)
      clampInt (Double.signed negative (Text.natOfDigits (digits.takeWhile Text.isDigit)))
  | none =>
      match v with
      | .integer n => n
      | .real d => wholePart d
      | _ => 0

def toReal (v : Stored) : Double :=
  match v.toNumber with
  | .integer n => Double.ofInt n.toInt
  | .real d => d
  | _ => Double.zero

/-- The text that a value is taken for; a blob keeps its bytes. -/
def toSqlText : Stored → Stored
  | .null => .null
  | .integer n => .text (toString n.toInt)
  | .real d => .text d.toSqlText
  | .text s => .text s
  | .brokenText b => .brokenText b
  | .blob b => .ofTextBytes b

/-- The bytes of a value, a number as its text. -/
def toBytes (v : Stored) : List UInt8 :=
  match v with
  | .blob b => b
  | v =>
      match v.toSqlText with
      | .text s => Utf8.encode s
      | .brokenText b => b
      | _ => []

/-- Whether a value counts as true; `none` for a missing one. -/
def truth? : Stored → Option Bool
  | .null => none
  | .integer n => some (n != 0)
  | .real d => some (d.compare Double.zero != .eq)
  | v => some (v.toReal.compare Double.zero != .eq)

def ofTruth : Option Bool → Stored
  | some b => .ofBool b
  | none => .null

/-- A text that is a number becomes the number; other texts stay. -/
def asNumeric (whole : Bool) (v : Stored) : Stored :=
  let read (s : String) : Stored :=
    let r := readNumber s.toList
    if r.complete && !s.isEmpty then
      match r.value with
      | .real d => if whole then ofWhole d else .real d
      | n => n
    else .text s
  match v with
  | .text s => if (Double.literal? (s.toList.dropWhile isSpace)).isSome then read s else v
  | v => v

/-- What a column of an affinity stores. -/
def withAffinity (affinity : Affinity) (v : Stored) : Stored :=
  match affinity with
  | .blob => v
  | .text =>
      match v with
      | .integer _ => v.toSqlText
      | .real _ => v.toSqlText
      | v => v
  | .real =>
      match asNumeric false v with
      | .integer n => .real (Double.ofInt n.toInt)
      | v => v
  | _ =>
      match asNumeric true v with
      | .real d => ofWhole d
      | v => v

/-- Conversion to the affinity of a named type, by force. -/
def castTo (type : String) (v : Stored) : Stored :=
  match v with
  | .null => .null
  | v =>
      match Affinity.ofType type with
      | .text => v.toSqlText
      | .blob =>
          match v with
          | .blob b => .blob b
          | v => .blob v.toBytes
      | .integer => .integer v.toInteger
      | .real => .real v.toReal
      | .numeric =>
          match v with
          | .integer n => .integer n
          | .real d => .real d
          | v =>
              match v.toNumber with
              | .real d => ofWhole d
              | n => n

end Stored

/-- How texts are compared. -/
inductive Collation where
  | binary
  | noCase
  | rightTrim
deriving DecidableEq

namespace Collation

def ofName? (name : String) : Option Collation :=
  match Text.upperString name with
  | "BINARY" => some binary
  | "NOCASE" => some noCase
  | "RTRIM" => some rightTrim
  | _ => none

def key (collation : Collation) (s : String) : String :=
  match collation with
  | binary => s
  | noCase => Text.lowerString s
  | rightTrim => String.ofList (s.toList.reverse.dropWhile (· == ' ')).reverse

end Collation

namespace Stored

def bytesOrder : List UInt8 → List UInt8 → Ordering
  | [], [] => .eq
  | [], _ => .lt
  | _, [] => .gt
  | a :: as, b :: bs => if a < b then .lt else if b < a then .gt else bytesOrder as bs

def textBytes : Stored → List UInt8
  | .text s => Utf8.encode s
  | .brokenText b => b
  | .blob b => b
  | _ => []

/-- The place of a storage class in the order of values. -/
def rank : Stored → Nat
  | .null => 0
  | .integer _ => 1
  | .real _ => 1
  | .text _ => 2
  | .brokenText _ => 2
  | .blob _ => 3

/-- The order of values: missing ones, numbers, texts, blobs. -/
def order (collation : Collation) (a b : Stored) : Ordering :=
  match a, b with
  | .integer x, .integer y => compare x.toInt y.toInt
  | .real x, .real y => x.compare y
  | .integer x, .real y => (compareInt x.toInt y)
  | .real x, .integer y => (compareInt y.toInt x).swap
  | .text x, .text y => compare (collation.key x) (collation.key y)
  | a, b =>
      if a.rank ≠ b.rank then compare a.rank b.rank else bytesOrder a.textBytes b.textBytes
where
  /-- An integer against a real, exactly. -/
  compareInt (n : Int) (d : Double) : Ordering :=
    match d.ratio? with
    | some (s, m, k) => compare (n * k) (Double.signed s m)
    | none => if d.isNan then .gt else if d.isNegative then .gt else .lt

/-- The affinity that a comparison gives its operands; `none` marks an operand that is no column
and no conversion. -/
def comparisonAffinity (a b : Option Affinity) : Option Affinity :=
  match a, b with
  | some x, some y => if x.isNumeric || y.isNumeric then some .numeric else some .blob
  | some x, none => some x
  | none, b => b

/-- Both operands of a comparison, with the affinity of the comparison. -/
def alike (affinity : Option Affinity) (a b : Stored) : Stored × Stored :=
  match affinity with
  | some x =>
      if x.isNumeric then (a.asNumeric false, b.asNumeric false)
      else if x = .text && (a.rank = 2 || b.rank = 2) then
        (a.withAffinity .text, b.withAffinity .text)
      else (a, b)
  | none => (a, b)

end Stored

end SqlUnits
