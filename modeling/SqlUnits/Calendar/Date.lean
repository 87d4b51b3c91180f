/-!
Dates of the Gregorian calendar, extended backwards, and times of day. A leap second is the last
second of a minute with a billion nanoseconds or more.
-/

namespace SqlUnits

namespace Date

def isLeapYear (year : Int) : Bool :=
  year % 4 = 0 && (year % 100 ≠ 0 || year % 400 = 0)

def daysInMonth (year : Int) (month : Nat) : Nat :=
  if month = 2 then if isLeapYear year then 29 else 28
  else if month = 4 || month = 6 || month = 9 || month = 11 then 30
  else 31

def minYear : Int := -262143

def maxYear : Int := 262142

def isValid (year : Int) (month day : Nat) : Bool :=
  minYear ≤ year && year ≤ maxYear && 1 ≤ month && month ≤ 12 && 1 ≤ day &&
    day ≤ daysInMonth year month

end Date

structure Date where
  year : Int
  month : Nat
  day : Nat
  valid : Date.isValid year month day = true := by decide
deriving DecidableEq

namespace Date

def ofFields? (year : Int) (month day : Nat) : Option Date :=
  if h : isValid year month day = true then some ⟨year, month, day, h⟩ else none

def epoch : Date where
  year := 1970
  month := 1
  day := 1

/-- The date so many days after the epoch; years are counted from March in eras of 400. -/
def ofDays? (days : Int) : Option Date :=
  let z := days + 719468
  let era := z / 146097
  let dayOfEra := (z % 146097).toNat
  let yearOfEra := (dayOfEra - dayOfEra / 1460 + dayOfEra / 36524 - dayOfEra / 146096) / 365
  let dayOfYear := dayOfEra - (365 * yearOfEra + yearOfEra / 4 - yearOfEra / 100)
  let m := (5 * dayOfYear + 2) / 153
  let day := dayOfYear - (153 * m + 2) / 5 + 1
  let month := if m < 10 then m + 3 else m - 9
  let year := (yearOfEra : Int) + era * 400 + (if month ≤ 2 then 1 else 0)
  ofFields? year month day

end Date

namespace Timestamp

def isTime (hour minute second nano : Nat) : Bool :=
  hour < 24 && minute < 60 && second < 60 &&
    (nano < 1000000000 || (nano < 2000000000 && second = 59))

end Timestamp

structure Timestamp where
  date : Date
  hour : Nat
  minute : Nat
  second : Nat
  nano : Nat
  valid : Timestamp.isTime hour minute second nano = true := by decide
deriving DecidableEq

namespace Timestamp

def ofFields? (date : Date) (hour minute second nano : Nat) : Option Timestamp :=
  if h : isTime hour minute second nano = true then some ⟨date, hour, minute, second, nano, h⟩
  else none

def midnight (date : Date) : Timestamp where
  date := date
  hour := 0
  minute := 0
  second := 0
  nano := 0

def epoch : Timestamp :=
  midnight Date.epoch

/-- The time so many seconds and nanoseconds after the epoch. -/
def ofSeconds? (seconds : Int) (nano : Nat := 0) : Option Timestamp := do
  let date ← Date.ofDays? (seconds / 86400)
  let rest := (seconds % 86400).toNat
  ofFields? date (rest / 3600) (rest / 60 % 60) (rest % 60) nano

end Timestamp

end SqlUnits
