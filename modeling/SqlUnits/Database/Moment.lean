import SqlUnits.Calendar.Date
import SqlUnits.Database.Affinity
/-!
The date functions: a moment is read from a text or a number, moved by modifiers, and written.
-/

namespace SqlUnits

/-- Milliseconds since the epoch. -/
structure Moment where
  ms : Int
deriving DecidableEq

namespace Moment

def dayMs : Int := 86400000

/-- The moment at which day numbers begin, noon long before the epoch. -/
def julianStart : Int := -210866760000000

/-- Days from the epoch to a date, whose month and day may lie out of range. -/
def daysOf (year month day : Int) : Int :=
  let year := year + (month - 1) / 12
  let month := (month - 1) % 12 + 1
  let y := if month ≤ 2 then year - 1 else year
  let era := y / 400
  let yearOfEra := y % 400
  let dayOfYear := (153 * ((month + 9) % 12) + 2) / 5 + day - 1
  let dayOfEra := yearOfEra * 365 + yearOfEra / 4 - yearOfEra / 100 + dayOfYear
  era * 146097 + dayOfEra - 719468

def ofFields (year month day hour minute : Int) (ms : Int) : Moment :=
  ⟨daysOf year month day * dayMs + hour * 3600000 + minute * 60000 + ms⟩

def date (m : Moment) : Int × Nat × Nat :=
  match Date.ofDays? (m.ms / dayMs) with
  | some d => (d.year, d.month, d.day)
  | none => (0, 1, 1)

def timeOfDay (m : Moment) : Nat := (m.ms % dayMs).toNat

/-- Exactly so many digits at the head of a text, as a number. -/
def digits? (count : Nat) (cs : Text) : Option (Nat × Text) :=
  let ds := cs.take count
  if ds.length = count && ds.all Text.isDigit then some (Text.natOfDigits ds, cs.drop count)
  else none

def char? (c : Char) : Text → Option Text
  | d :: rest => if d = c then some rest else none
  | [] => none

/-- A fraction of a second in milliseconds. -/
def fraction (cs : Text) : Nat × Text :=
  match cs with
  | '.' :: rest =>
      let ds := rest.takeWhile Text.isDigit
      if ds.isEmpty then (0, cs)
      else (Text.natOfDigits ((ds ++ ['0', '0', '0']).take 3), rest.drop ds.length)
  | _ => (0, cs)

/-- An offset from universal time in minutes, or nothing, then only blanks. -/
def zone? (cs : Text) : Option Int :=
  let cs := cs.dropWhile Stored.isSpace
  match cs with
  | [] => some 0
  | c :: rest =>
      let ended (t : Text) (n : Int) : Option Int := if t.all Stored.isSpace then some n else none
      if c == 'Z' || c == 'z' then ended rest 0
      else if c == '+' || c == '-' then do
        let (h, rest) ← digits? 2 rest
        let rest ← char? ':' rest
        let (m, rest) ← digits? 2 rest
        if h > 14 || m > 59 then none
        else ended rest (if c == '-' then (h * 60 + m : Int) else -(h * 60 + m : Int))
      else none

/-- A time of day: hours and minutes, maybe seconds, maybe a zone; in milliseconds. -/
def readTime? (cs : Text) : Option Int := do
  let (h, rest) ← digits? 2 cs
  let rest ← char? ':' rest
  let (m, rest) ← digits? 2 rest
  if h > 24 || m > 59 then none
  else
    let (seconds, rest) ←
      match rest with
      | ':' :: more => do
          let (s, more) ← digits? 2 more
          if s > 59 then none
          else
            let (f, more) := fraction more
            pure (1000 * s + f, more)
      | _ => pure (0, rest)
    let zone ← zone? rest
    pure ((h : Int) * 3600000 + ((m : Int) + zone) * 60000 + seconds)

def readDate? (cs : Text) : Option Moment := do
  let (negative, cs) := match cs with
    | '-' :: rest => (true, rest)
    | _ => (false, cs)
  let (y, rest) ← digits? 4 cs
  let rest ← char? '-' rest
  let (m, rest) ← digits? 2 rest
  let rest ← char? '-' rest
  let (d, rest) ← digits? 2 rest
  if m = 0 || m > 12 || d = 0 || d > 31 then none
  else
    let year : Int := if negative then -(y : Int) else y
    let rest := rest.dropWhile fun c => Stored.isSpace c || c == 'T'
    let time ← if rest.isEmpty then pure 0 else readTime? rest
    pure (ofFields year m d 0 0 time)

def ofJulianDay (d : Double) : Option Moment := do
  let (s, n, m) ← d.ratio?
  let ms := Double.signed s ((n * 86400000 * 2 + m) / (2 * m))
  if ms < 0 || ms ≥ 464269060800000 then none else pure ⟨julianStart + ms⟩

/-- Reads a moment; `now` is the moment of the statement. -/
def read? (now : Moment) (v : Stored) : Option Moment :=
  match v with
  | .null => none
  | .integer n => ofJulianDay (Double.ofInt n.toInt)
  | .real d => ofJulianDay d
  | v =>
      match v.toSqlText with
      | .text s =>
          let cs := s.toList
          if Text.sameLetters s "now" then some now
          else
            match readDate? cs with
            | some m => some m
            | none =>
                match readTime? cs with
                | some ms => some ⟨daysOf 2000 1 1 * dayMs + ms⟩
                | none =>
                    match (Stored.text s).asNumeric false with
                    | .integer n => ofJulianDay (Double.ofInt n.toInt)
                    | .real d => ofJulianDay d
                    | _ => none
      | _ => none

/-- A number of units, as the start of a modifier. -/
def amount? (cs : Text) : Option (Double × Text) := do
  let l ← Double.literal? cs
  pure (Double.ofDecimal l.negative l.digits l.exponent, l.rest)

/-- A number of units of `unit` milliseconds each, rounded. -/
def scaledMs (d : Double) (unit : Nat) : Int :=
  match d.ratio? with
  | some (s, n, m) => Double.signed s ((n * unit * 2 + m) / (2 * m))
  | none => 0

def addMonths (m : Moment) (count : Int) : Moment :=
  let (y, month, d) := m.date
  ⟨daysOf y (month + count) d * dayMs + m.timeOfDay⟩

def unitModifier? (m : Moment) (cs : Text) : Option Moment := do
  let (d, rest) ← amount? cs
  let unit := String.ofList ((rest.dropWhile Stored.isSpace).map Text.lower)
  let whole := (d.truncate?).getD 0
  let is (name : String) : Bool := unit == name || unit == name ++ "s"
  if is "second" then some ⟨m.ms + scaledMs d 1000⟩
  else if is "minute" then some ⟨m.ms + scaledMs d 60000⟩
  else if is "hour" then some ⟨m.ms + scaledMs d 3600000⟩
  else if is "day" then some ⟨m.ms + scaledMs d 86400000⟩
  else if is "month" then some (m.addMonths whole)
  else if is "year" then some (m.addMonths (12 * whole))
  else none

/-- The next day of the week from a moment on, Sunday being zero. -/
def onWeekday (m : Moment) (n : Int) : Moment :=
  let today := (m.ms / dayMs + 4) % 7
  ⟨m.ms + (n - today) % 7 * dayMs⟩

/-- Moves a moment by a modifier. A number is read anew as seconds by `unixepoch`. -/
def modify? (source : Stored) (m : Option Moment) (modifier : String) : Option Moment :=
  match Text.lowerString modifier with
  | "unixepoch" =>
      match source.toNumber with
      | .integer n => some ⟨1000 * n.toInt⟩
      | .real d => some ⟨scaledMs d 1000⟩
      | _ => none
  | "localtime" => m
  | "utc" => m
  | "subsec" => m
  | "subsecond" => m
  | "start of day" => m.map fun m => ⟨m.ms / dayMs * dayMs⟩
  | "start of month" =>
      m.map fun m =>
        let (y, month, _) := m.date
        ⟨daysOf y month 1 * dayMs⟩
  | "start of year" =>
      m.map fun m =>
        let (y, _, _) := m.date
        ⟨daysOf y 1 1 * dayMs⟩
  | "weekday 0" => m.map (·.onWeekday 0)
  | "weekday 1" => m.map (·.onWeekday 1)
  | "weekday 2" => m.map (·.onWeekday 2)
  | "weekday 3" => m.map (·.onWeekday 3)
  | "weekday 4" => m.map (·.onWeekday 4)
  | "weekday 5" => m.map (·.onWeekday 5)
  | "weekday 6" => m.map (·.onWeekday 6)
  | text => m.bind (unitModifier? · text.toList)

def modifyAll? (source : Stored) (m : Option Moment) : List Stored → Option Moment
  | [] => m
  | v :: rest =>
      match v.toSqlText with
      | .text s =>
          match modify? source m s with
          | some next => modifyAll? source (some next) rest
          | none => none
      | _ => none

/-- The moment that the arguments of a date function stand for; none are the present. -/
def ofArgs? (now : Moment) : List Stored → Option Moment
  | [] => some now
  | v :: modifiers => do
      let m ← modifyAll? v (read? now v) modifiers
      if m.ms < julianStart || m.ms ≥ 253402300800000 then none else pure m

def padded (width : Nat) (n : Nat) : String :=
  let ds := Nat.toDigits 10 n
  String.ofList (List.replicate (width - ds.length) '0' ++ ds)

def dateText (m : Moment) : String :=
  let (y, month, d) := m.date
  (if y < 0 then "-" else "") ++ padded 4 y.natAbs ++ "-" ++ padded 2 month ++ "-" ++ padded 2 d

def timeText (m : Moment) : String :=
  let s := m.timeOfDay / 1000
  padded 2 (s / 3600) ++ ":" ++ padded 2 (s / 60 % 60) ++ ":" ++ padded 2 (s % 60)

def julianDay (m : Moment) : Double :=
  Double.ofRatio (m.ms < julianStart) (m.ms - julianStart).natAbs 86400000

def unixSeconds (m : Moment) : Int := m.ms / 1000

/-- What a letter stands for in a format; `none` for an unknown one. -/
def letter? (m : Moment) (c : Char) : Option String :=
  let (y, month, d) := m.date
  let t := m.timeOfDay
  match c with
  | 'd' => some (padded 2 d)
  | 'f' => some (padded 2 (t / 1000 % 60) ++ "." ++ padded 3 (t % 1000))
  | 'F' => some m.dateText
  | 'H' => some (padded 2 (t / 3600000))
  | 'j' => some (padded 3 (m.ms / dayMs - daysOf y 1 1 + 1).toNat)
  | 'J' => some m.julianDay.toSqlText
  | 'm' => some (padded 2 month)
  | 'M' => some (padded 2 (t / 60000 % 60))
  | 'R' => some (padded 2 (t / 3600000) ++ ":" ++ padded 2 (t / 60000 % 60))
  | 's' => some (toString m.unixSeconds)
  | 'S' => some (padded 2 (t / 1000 % 60))
  | 'T' => some m.timeText
  | 'u' => some (toString ((m.ms / dayMs + 3) % 7 + 1))
  | 'w' => some (toString ((m.ms / dayMs + 4) % 7))
  | 'Y' => some (padded 4 y.natAbs)
  | '%' => some "%"
  | _ => none

def format? (m : Moment) : Text → Option String
  | [] => some ""
  | '%' :: c :: rest => do pure ((← m.letter? c) ++ (← m.format? rest))
  | ['%'] => none
  | c :: rest => do pure (String.singleton c ++ (← m.format? rest))

/-- The date functions by name. -/
def call (name : String) (now : Moment) (args : List Stored) : Stored :=
  let text (m : Option Moment) (f : Moment → Stored) : Stored := (m.map f).getD .null
  match name with
  | "date" => text (ofArgs? now args) fun m => .text m.dateText
  | "time" => text (ofArgs? now args) fun m => .text m.timeText
  | "datetime" => text (ofArgs? now args) fun m => .text (m.dateText ++ " " ++ m.timeText)
  | "julianday" => text (ofArgs? now args) fun m => .real m.julianDay
  | "unixepoch" => text (ofArgs? now args) fun m => .ofInt m.unixSeconds
  | _ =>
      match args with
      | [] => .null
      | format :: args =>
          match format.toSqlText with
          | .text f =>
              match (ofArgs? now args).bind (·.format? f.toList) with
              | some s => .text s
              | none => .null
          | _ => .null

end Moment

end SqlUnits
