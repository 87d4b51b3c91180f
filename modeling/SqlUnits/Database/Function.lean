import SqlUnits.Database.Moment
import SqlUnits.Number.Natural
import SqlUnits.Text.Hex
/-!
The functions of the database: those of one row, and those of a group of rows.
-/

namespace SqlUnits

/-- What functions may know about the connection. -/
structure Facts where
  now : Moment := ⟨0⟩
  lastId : Int64 := 0
  changes : Nat := 0
  totalChanges : Nat := 0

namespace Pattern

/-- Letters that a pattern takes for equal. -/
def same (fold : Bool) (a b : Char) : Bool :=
  if fold then Text.lower a == Text.lower b else a == b

/-- Matches a text against a pattern in which `%` is any text and `_` any character. -/
def like (escape : Option Char) : Nat → Text → Text → Bool
  | 0, _, _ => false
  | fuel + 1, pattern, cs =>
      match pattern with
      | [] => cs.isEmpty
      | p :: rest =>
          if escape == some p then
            match rest, cs with
            | q :: more, c :: tail => same true q c && like escape fuel more tail
            | _, _ => false
          else if p == '%' then
            like escape fuel rest cs ||
              match cs with
              | _ :: tail => like escape fuel (p :: rest) tail
              | [] => false
          else
            match cs with
            | c :: tail => (p == '_' || same true p c) && like escape fuel rest tail
            | [] => false

/-- Whether a character is in a set: characters and ranges up to the closing bracket. -/
def inSet (c : Char) : Nat → Bool → Text → Option (Bool × Text)
  | 0, _, _ => none
  | _ + 1, _, [] => none
  | fuel + 1, first, a :: rest =>
      if a == ']' && !first then some (false, rest)
      else
        match rest with
        | '-' :: b :: more =>
            if b == ']' then (inSet c fuel false rest).map fun (r, t) => (r || a == c, t)
            else (inSet c fuel false more).map fun (r, t) => (r || (a ≤ c && c ≤ b), t)
        | _ => (inSet c fuel false rest).map fun (r, t) => (r || a == c, t)

/-- Matches a text against a pattern in which `*` is any text, `?` any character, and brackets
enclose a set. -/
def glob : Nat → Text → Text → Bool
  | 0, _, _ => false
  | fuel + 1, pattern, cs =>
      match pattern with
      | [] => cs.isEmpty
      | p :: rest =>
          if p == '*' then
            glob fuel rest cs ||
              match cs with
              | _ :: tail => glob fuel (p :: rest) tail
              | [] => false
          else
            match cs with
            | [] => false
            | c :: tail =>
                if p == '?' then glob fuel rest tail
                else if p == '[' then
                  let (inverted, set) :=
                    match rest with
                    | '^' :: more => (true, more)
                    | _ => (false, rest)
                  match inSet c (set.length + 1) true set with
                  | some (found, more) => (found != inverted) && glob fuel more tail
                  | none => false
                else p == c && glob fuel rest tail

def fuelFor (pattern cs : Text) : Nat :=
  pattern.length + cs.length + 2

end Pattern

namespace Scalar

def textOf (v : Stored) : Text :=
  match v.toSqlText with
  | .text s => s.toList
  | .brokenText b => Stored.narrow b
  | _ => []

def ofText (cs : Text) : Stored := .text (String.ofList cs)

def anyNull (args : List Stored) : Bool :=
  args.any Stored.isNull

def absolute : Stored → Except String Stored
  | .null => .ok .null
  | .integer n =>
      if n = Int64.minValue then .error "integer overflow"
      else .ok (.integer (if n < 0 then -n else n))
  | v =>
      let d := v.toReal
      .ok (.real (if d.isNegative then d.neg else d))

def lengthOf : Stored → Stored
  | .null => .null
  | .blob b => .ofInt b.length
  | v => .ofInt (textOf v).length

/-- A part of a sequence, from a place counted from one, or from the end if it is negative. -/
def part (items : List α) (start : Int) (count : Option Int) : List α :=
  let n : Int := items.length
  let (first, taken) :=
    match count with
    | none =>
        if start < 0 then (max (n + start) 0, n)
        else if start > 0 then (start - 1, n) else (0, n)
    | some c =>
        let first := if start < 0 then n + start else if start > 0 then start - 1 else 0
        let c' := if start = 0 && c > 0 then c - 1 else c
        let (first, stop) := if c' < 0 then (first + c', first) else (first, first + c')
        (max first 0, stop - max first 0)
  (items.drop first.toNat).take taken.toNat

def substring (v : Stored) (start : Stored) (count : Option Stored) : Stored :=
  if v.isNull || start.isNull || count.any Stored.isNull then .null
  else
    let s := start.toInteger.toInt
    let c := count.map fun c => c.toInteger.toInt
    match v with
    | .blob b => .blob (part b s c)
    | v => ofText (part (textOf v) s c)

def trimmed (left right : Bool) (v : Stored) (set : Option Stored) : Stored :=
  if v.isNull || set.any Stored.isNull then .null
  else
    let set := (set.map textOf).getD [' ']
    let cs := textOf v
    let inSet (c : Char) : Bool := List.elem c set
    let cs := if left then cs.dropWhile inSet else cs
    ofText (if right then (cs.reverse.dropWhile inSet).reverse else cs)

def replaceAll (part by_ : Text) : Nat → Text → Text
  | 0, cs => cs
  | fuel + 1, cs =>
      match Text.splitOnce? part cs with
      | some (before, after) => before ++ by_ ++ replaceAll part by_ fuel after
      | none => cs

/-- The place of the first occurrence, counted from one. -/
def place (cs part : Text) : Nat :=
  match Text.splitOnce? part cs with
  | some (before, _) => before.length + 1
  | none => 0

/-- A value as a literal. -/
def quoted : Stored → Stored
  | .null => .text "NULL"
  | .integer n => .text (toString n.toInt)
  | .real d => .text d.toSqlText
  | .blob b => .text ("X'" ++ Text.upperString (Hex.ofBytes b) ++ "'")
  | v =>
      ofText ('\'' :: (textOf v).flatMap (fun c => if c = '\'' then ['\'', '\''] else [c]) ++ ['\''])

/-- A number rounded to so many places, a half away from zero. -/
def rounded (v places : Stored) : Stored :=
  if v.isNull || places.isNull then .null
  else
    let n := (min (max places.toInteger.toInt 0) 30).toNat
    let d := v.toReal
    match d.ratio? with
    | some (s, num, den) =>
        .real (Double.ofDecimal s (Double.divHalfUp (num * tenPow n) den) (-(n : Int)))
    | none => .real d

def signOf (v : Stored) : Stored :=
  match v.numberText? with
  | some cs =>
      let r := Stored.readNumber cs
      if r.complete && (Double.literal? (cs.dropWhile Stored.isSpace)).isSome then number r.value
      else .null
  | none => number v
where
  number : Stored → Stored
    | .integer n => .ofInt n.toInt.sign
    | .real d =>
        match d.compare Double.zero with
        | .lt => .ofInt (-1)
        | .eq => .ofInt 0
        | .gt => .ofInt 1
    | _ => .null

def typeName : Stored → String
  | .null => "null"
  | .integer _ => "integer"
  | .real _ => "real"
  | .text _ => "text"
  | .brokenText _ => "text"
  | .blob _ => "blob"

/-- The least or the greatest of some values; missing if one is. -/
def extreme (collation : Collation) (wanted : Ordering) : List Stored → Stored
  | [] => .null
  | v :: rest =>
      if anyNull (v :: rest) then .null
      else rest.foldl (fun best x => if x.order collation best == wanted then x else best) v

def concatenated (separator : Text) (args : List Stored) : Stored :=
  ofText (Text.joinWith separator ((args.filter (!·.isNull)).map textOf))

def likeCall (args : List Stored) : Except String Stored :=
  match args with
  | [pattern, v] =>
      if anyNull args then .ok .null
      else
        let (p, c) := (textOf pattern, textOf v)
        .ok (.ofBool (Pattern.like none (Pattern.fuelFor p c) p c))
  | [pattern, v, escape] =>
      if anyNull args then .ok .null
      else
        match textOf escape with
        | [e] =>
            let (p, c) := (textOf pattern, textOf v)
            .ok (.ofBool (Pattern.like (some e) (Pattern.fuelFor p c) p c))
        | _ => .error "ESCAPE expression must be a single character"
  | _ => .ok .null

def unhexed (v : Stored) (skip : Option Stored) : Stored :=
  let skipped := (skip.map textOf).getD []
  let cs := (textOf v).filter fun c => !List.elem c skipped
  if v.isNull || List.elem '+' cs then .null
  else ((Hex.toBytes? cs).map Stored.blob).getD .null

def characters (args : List Stored) : Stored :=
  ofText (args.map fun v =>
    let n := v.toInteger.toInt
    if 0 ≤ n && n < 0x110000 then Char.ofNat n.toNat else Char.ofNat 0xFFFD)

/-- How many arguments a function takes: at least, and at most if there is a limit. -/
structure Arity where
  least : Nat
  most : Option Nat

def exactly (n : Nat) : Option Arity := some ⟨n, some n⟩
def between (low high : Nat) : Option Arity := some ⟨low, some high⟩
def atLeast (n : Nat) : Option Arity := some ⟨n, none⟩

def Arity.admits (a : Arity) (n : Nat) : Bool :=
  a.least ≤ n && a.most.all (n ≤ ·)

/-- The functions of one row, by their names in small letters. -/
def arity? (name : String) : Option Arity :=
  match name with
  | "abs" => exactly 1
  | "changes" => exactly 0
  | "char" => atLeast 0
  | "coalesce" => atLeast 2
  | "concat" => atLeast 1
  | "concat_ws" => atLeast 2
  | "date" => atLeast 0
  | "datetime" => atLeast 0
  | "glob" => exactly 2
  | "hex" => exactly 1
  | "ifnull" => exactly 2
  | "iif" => exactly 3
  | "instr" => exactly 2
  | "julianday" => atLeast 0
  | "last_insert_rowid" => exactly 0
  | "length" => exactly 1
  | "like" => between 2 3
  | "likelihood" => exactly 2
  | "likely" => exactly 1
  | "lower" => exactly 1
  | "ltrim" => between 1 2
  | "max" => atLeast 2
  | "min" => atLeast 2
  | "nullif" => exactly 2
  | "octet_length" => exactly 1
  | "quote" => exactly 1
  | "random" => exactly 0
  | "replace" => exactly 3
  | "round" => between 1 2
  | "rtrim" => between 1 2
  | "sign" => exactly 1
  | "sqlite_version" => exactly 0
  | "strftime" => atLeast 1
  | "substr" => between 2 3
  | "substring" => between 2 3
  | "time" => atLeast 0
  | "total_changes" => exactly 0
  | "trim" => between 1 2
  | "typeof" => exactly 1
  | "unhex" => between 1 2
  | "unicode" => exactly 1
  | "unixepoch" => atLeast 0
  | "unlikely" => exactly 1
  | "upper" => exactly 1
  | "zeroblob" => exactly 1
  | _ => none

/-- The number of the first character; none if that ends the text. -/
def codePoint (v : Stored) : Stored :=
  match (textOf v).head? with
  | some c => if c.toNat = 0 then .null else .ofInt c.toNat
  | none => .null

/-- The greatest length of a value. -/
def maxLength : Nat := 1000000000

/-- So many zero bytes. -/
def zeros (n : Nat) : Except String Stored :=
  if n ≤ maxLength then .ok (.blob (List.replicate n 0)) else .error "string or blob too big"

/-- Calls a function of one row. -/
def call (name : String) (collation : Collation) (facts : Facts) (args : List Stored) :
    Except String Stored :=
  match name, args with
  | "abs", [v] => absolute v
  | "changes", _ => .ok (.ofInt facts.changes)
  | "char", args => .ok (characters args)
  | "concat", args => .ok (concatenated [] args)
  | "concat_ws", s :: args => .ok (if s.isNull then .null else concatenated (textOf s) args)
  | "glob", [p, v] =>
      if anyNull args then .ok .null
      else
        let (p, c) := (textOf p, textOf v)
        .ok (.ofBool (Pattern.glob (Pattern.fuelFor p c) p c))
  | "hex", [v] => .ok (.text (Text.upperString (Hex.ofBytes v.toBytes)))
  | "instr", [v, p] =>
      if anyNull args then .ok .null else .ok (.ofInt (place (textOf v) (textOf p)))
  | "last_insert_rowid", _ => .ok (.integer facts.lastId)
  | "length", [v] => .ok (lengthOf v)
  | "like", args => likeCall args
  | "likelihood", v :: _ => .ok v
  | "likely", [v] => .ok v
  | "unlikely", [v] => .ok v
  | "lower", [v] => .ok (if v.isNull then .null else ofText ((textOf v).map Text.lower))
  | "upper", [v] => .ok (if v.isNull then .null else ofText ((textOf v).map Text.upper))
  | "ltrim", v :: set => .ok (trimmed true false v set.head?)
  | "rtrim", v :: set => .ok (trimmed false true v set.head?)
  | "trim", v :: set => .ok (trimmed true true v set.head?)
  | "max", args => .ok (extreme collation .gt args)
  | "min", args => .ok (extreme collation .lt args)
  | "nullif", [a, b] => .ok (if !anyNull args && a.order collation b == .eq then .null else a)
  | "octet_length", [v] => .ok (if v.isNull then .null else .ofInt v.toBytes.length)
  | "quote", [v] => .ok (quoted v)
  | "random", _ => .ok (.integer 0)
  | "replace", [v, p, r] =>
      if anyNull args then .ok .null
      else if (textOf p).isEmpty then .ok v.toSqlText
      else
        let cs := textOf v
        .ok (ofText (replaceAll (textOf p) (textOf r) (cs.length + 1) cs))
  | "round", [v] => .ok (rounded v (.integer 0))
  | "round", [v, n] => .ok (rounded v n)
  | "sign", [v] => .ok (signOf v)
  | "sqlite_version", _ => .ok (.text "3.46.0")
  | "substr", [v, s] => .ok (substring v s none)
  | "substr", [v, s, n] => .ok (substring v s (some n))
  | "substring", [v, s] => .ok (substring v s none)
  | "substring", [v, s, n] => .ok (substring v s (some n))
  | "total_changes", _ => .ok (.ofInt facts.totalChanges)
  | "typeof", [v] => .ok (.text (typeName v))
  | "unhex", v :: skip => .ok (unhexed v skip.head?)
  | "unicode", [v] => .ok (codePoint v)
  | "zeroblob", [v] => zeros v.toInteger.toInt.toNat
  | name, args => .ok (Moment.call name facts.now args)

end Scalar

/-- A function of a group of rows. -/
inductive AggregateKind where
  | countRows
  | count
  | sum
  | total
  | average
  | least
  | greatest
  | join
deriving DecidableEq

namespace AggregateKind

/-- The aggregate of a name in small letters with so many arguments; the second part is false
when the name is known and the number is wrong. -/
def ofCall? (name : String) (args : Nat) : Option (AggregateKind × Bool) :=
  match name with
  | "count" => some (if args = 0 then .countRows else .count, args ≤ 1)
  | "sum" => some (.sum, args = 1)
  | "total" => some (.total, args = 1)
  | "avg" => some (.average, args = 1)
  | "group_concat" => some (.join, args = 1 || args = 2)
  | "string_agg" => some (.join, args = 2)
  | "min" => if args ≤ 1 then some (.least, args = 1) else none
  | "max" => if args ≤ 1 then some (.greatest, args = 1) else none
  | _ => none

def isExtreme : AggregateKind → Bool
  | least => true
  | greatest => true
  | _ => false

def firstArg (row : List Stored) : Stored :=
  row.headD .null

def realSum (values : List Stored) : Double :=
  values.foldl (fun d v => d.add v.toReal) Double.zero

/-- A sum of numbers: an integer as long as all of them are. -/
def sumOf (values : List Stored) : Except String Stored :=
  let integer? (v : Stored) : Option Int :=
    match v.asNumeric false with
    | .integer n => some n.toInt
    | _ => none
  match values.mapM integer? with
  | some ns =>
      let total := ns.foldl (· + ·) 0
      if Int64.minValue.toInt ≤ total ∧ total ≤ Int64.maxValue.toInt then .ok (.ofInt total)
      else .error "integer overflow"
  | none => .ok (.real (realSum values))
/-- The best value of a group, and the place of the row that gave it. -/
def best (collation : Collation) (wanted : Ordering) (values : List Stored) :
    Option (Nat × Stored) :=
  values.zipIdx.foldl (fun found (v, i) =>
    match found with
    | none => if v.isNull then none else some (i, v)
    | some (j, b) =>
        if !v.isNull && v.order collation b == wanted then some (i, v) else some (j, b)) none

/-- The rows of a group, each with the values of the arguments, as one value. -/
def result (kind : AggregateKind) (collation : Collation) (rows : List (List Stored)) :
    Except String Stored :=
  let values := (rows.map firstArg).filter (!·.isNull)
  match kind with
  | countRows => .ok (.ofInt rows.length)
  | count => .ok (.ofInt values.length)
  | sum => if values.isEmpty then .ok .null else sumOf values
  | total => .ok (.real (realSum values))
  | average =>
      match (realSum values).div? (Double.ofInt values.length) with
      | some d => .ok (.real d)
      | none => .ok .null
  | least => .ok (((best collation .lt (rows.map firstArg)).map (·.2)).getD .null)
  | greatest => .ok (((best collation .gt (rows.map firstArg)).map (·.2)).getD .null)
  | join =>
      let parts := rows.filter fun r => !(firstArg r).isNull
      match parts with
      | [] => .ok .null
      | first :: rest =>
          let tail (r : List Stored) : Text :=
            (r[1]?.map Scalar.textOf).getD [','] ++ Scalar.textOf (firstArg r)
          .ok (Scalar.ofText (Scalar.textOf (firstArg first) ++ rest.flatMap tail))

end AggregateKind

end SqlUnits
