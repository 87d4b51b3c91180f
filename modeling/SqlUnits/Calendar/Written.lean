import SqlUnits.Calendar.Date
import SqlUnits.Number.Natural
import SqlUnits.Text.Ascii
import SqlUnits.Text.Blank
/-!
The written forms of dates and timestamps. A form is a list of items; the same list says how a
value is written and what is read back.
-/

namespace SqlUnits.Calendar

inductive Item where
  | year
  | month
  | day
  | hour
  | minute
  | second
  /-- An optional fraction of a second, after a point. -/
  | fraction
  /-- Any number of blanks; one is written. -/
  | blanks
  | mark (c : Char)

abbrev Form := List Item

def dateForm : Form :=
  [.year, .mark '-', .month, .mark '-', .day]

def clockForm : Form :=
  [.hour, .mark ':', .minute, .mark ':', .second, .fraction]

/-- The form in which timestamps are stored. -/
def timestampForm : Form :=
  dateForm ++ .blanks :: clockForm

/-- The other form in which timestamps are read. -/
def letterForm : Form :=
  dateForm ++ .mark 'T' :: clockForm

/-- What the items of a form stand for. -/
structure Fields where
  year : Int := 0
  month : Nat := 0
  day : Nat := 0
  hour : Nat := 0
  minute : Nat := 0
  second : Nat := 0
  nano : Nat := 0

/-- Decimal digits of `n`, with zeros in front up to `width`. -/
def digits (width n : Nat) : Text :=
  let ds := Nat.toDigits 10 n
  List.replicate (width - ds.length) '0' ++ ds

def writeYear (year : Int) : Text :=
  if 0 ≤ year && year ≤ 9999 then digits 4 year.natAbs
  else (if year < 0 then '-' else '+') :: digits 4 year.natAbs

/-- Nothing, or three, six or nine digits: as few as are exact. -/
def writeFraction (nano : Nat) : Text :=
  if nano = 0 then []
  else if nano % 1000000 = 0 then '.' :: digits 3 (nano / 1000000)
  else if nano % 1000 = 0 then '.' :: digits 6 (nano / 1000)
  else '.' :: digits 9 nano

/-- A leap second is written as the second 60. -/
def Item.write (fields : Fields) : Item → Text
  | year => writeYear fields.year
  | month => digits 2 fields.month
  | day => digits 2 fields.day
  | hour => digits 2 fields.hour
  | minute => digits 2 fields.minute
  | second => digits 2 (fields.second + fields.nano / 1000000000)
  | fraction => writeFraction (fields.nano % 1000000000)
  | blanks => [' ']
  | mark c => [c]

def Form.write (form : Form) (fields : Fields) : String :=
  String.ofList (form.flatMap (·.write fields))

/-- Why a text is not in a form. -/
inductive ReadProblem where
  | outOfRange
  | invalid
  | tooShort
  | trailing
deriving DecidableEq

def ReadProblem.message : ReadProblem → String
  | outOfRange => "input is out of range"
  | invalid => "input contains invalid characters"
  | tooShort => "premature end of input"
  | trailing => "trailing input"

/-- At least one digit, and at most `width` where a width is given. -/
def readNumber (width : Option Nat) (cs : Text) : Except ReadProblem (Nat × Text) :=
  match cs with
  | [] => .error .tooShort
  | c :: _ =>
      if !Text.isDigit c then .error .invalid
      else
        let run := cs.takeWhile Text.isDigit
        let run := match width with
          | some w => run.take w
          | none => run
        let n := Text.natOfDigits run
        if n < twoPow 63 then .ok (n, cs.drop run.length) else .error .outOfRange

def readYear (cs : Text) : Except ReadProblem (Int × Text) := do
  let (year, rest) ← (match cs with
    | '-' :: more => do
        let (n, rest) ← readNumber none more
        pure (-(n : Int), rest)
    | '+' :: more => do
        let (n, rest) ← readNumber none more
        pure ((n : Int), rest)
    | _ => do
        let (n, rest) ← readNumber (some 4) cs
        pure ((n : Int), rest))
  if -(twoPow 31 : Int) ≤ year && year < twoPow 31 then pure (year, rest) else throw .outOfRange

/-- A number of at most two digits between two bounds. -/
def readBounded (low high : Nat) (cs : Text) : Except ReadProblem (Nat × Text) := do
  let (n, rest) ← readNumber (some 2) cs
  if low ≤ n && n ≤ high then pure (n, rest) else throw .outOfRange

/-- Nine digits count; further ones are skipped. -/
def readFraction (cs : Text) : Except ReadProblem (Nat × Text) := do
  let (n, rest) ← readNumber (some 9) cs
  let used := cs.length - rest.length
  pure (n * tenPow (9 - used), rest.dropWhile Text.isDigit)

def Item.read (fields : Fields) (item : Item) (cs : Text) :
    Except ReadProblem (Fields × Text) := do
  match item with
  | year =>
      let (n, rest) ← readYear (Text.trimStart cs)
      pure ({ fields with year := n }, rest)
  | month =>
      let (n, rest) ← readBounded 1 12 (Text.trimStart cs)
      pure ({ fields with month := n }, rest)
  | day =>
      let (n, rest) ← readBounded 1 31 (Text.trimStart cs)
      pure ({ fields with day := n }, rest)
  | hour =>
      let (n, rest) ← readBounded 0 23 (Text.trimStart cs)
      pure ({ fields with hour := n }, rest)
  | minute =>
      let (n, rest) ← readBounded 0 59 (Text.trimStart cs)
      pure ({ fields with minute := n }, rest)
  | second =>
      let (n, rest) ← readBounded 0 60 (Text.trimStart cs)
      if n = 60 then pure ({ fields with second := 59, nano := 1000000000 }, rest)
      else pure ({ fields with second := n }, rest)
  | fraction =>
      match cs with
      | '.' :: more =>
          let (n, rest) ← readFraction more
          pure ({ fields with nano := fields.nano + n }, rest)
      | _ => pure (fields, cs)
  | blanks => pure (fields, Text.trimStart cs)
  | mark c =>
      match cs with
      | [] => throw .tooShort
      | d :: rest => if c = d then pure (fields, rest) else throw .invalid

def readItems (fields : Fields) : Form → Text → Except ReadProblem Fields
  | [], [] => .ok fields
  | [], _ :: _ => .error .trailing
  | item :: form, cs => do
      let (fields, rest) ← item.read fields cs
      readItems fields form rest

def Form.read (form : Form) (cs : Text) : Except ReadProblem Fields :=
  readItems {} form cs

end SqlUnits.Calendar

namespace SqlUnits

open Calendar

namespace Date

def fields (date : Date) : Fields :=
  { year := date.year, month := date.month, day := date.day }

def write (date : Date) : String :=
  dateForm.write date.fields

def ofCalendar (fields : Fields) : Except ReadProblem Date :=
  match ofFields? fields.year fields.month fields.day with
  | some date => .ok date
  | none => .error .outOfRange

def read (cs : Text) : Except ReadProblem Date := do
  ofCalendar (← dateForm.read cs)

end Date

namespace Timestamp

def fields (t : Timestamp) : Fields :=
  { t.date.fields with hour := t.hour, minute := t.minute, second := t.second, nano := t.nano }

def write (t : Timestamp) : String :=
  timestampForm.write t.fields

/-- The time in the other form, as one of universal time. -/
def writeUniversal (t : Timestamp) : String :=
  letterForm.write t.fields ++ "+00:00"

def readAs (form : Form) (cs : Text) : Except ReadProblem Timestamp := do
  let fields ← form.read cs
  let date ← Date.ofCalendar fields
  match ofFields? date fields.hour fields.minute fields.second fields.nano with
  | some t => pure t
  | none => throw .outOfRange

/-- A blank or the letter T separates date and time; a failure is reported for the latter. -/
def read (cs : Text) : Except ReadProblem Timestamp :=
  match readAs timestampForm cs with
  | .ok t => .ok t
  | .error _ => readAs letterForm cs

end Timestamp

end SqlUnits
