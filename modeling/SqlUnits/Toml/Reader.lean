import SqlUnits.Number.Natural
import SqlUnits.Text.Hex
import SqlUnits.Text.Span
import SqlUnits.Toml.Basic
/-!
Reading TOML text: lines of headers and of keys with values.
-/

namespace SqlUnits.Toml

/-- What is wrong with the character that follows. -/
def refused (c : Cursor) (label : Option String) (expected : List String) : TomlError :=
  { label, expected, span := c.nextSpan }

def isSpace (c : Char) : Bool :=
  c == ' ' || c == '\t'

def skipSpace (c : Cursor) : Cursor :=
  c.skipWhile isSpace

/-- Control characters other than the tab have no place in a document. -/
def isPlain (c : Char) : Bool :=
  c == '\t' || (c.toNat ≥ 32 && c.toNat ≠ 127)

def newline? (c : Cursor) : Option Cursor :=
  match c.rest with
  | '\n' :: _ => some (c.advance 1)
  | '\r' :: '\n' :: _ => some (c.advance 2)
  | _ => none

/-- The cursor behind a comment, before its newline. -/
def skipComment (c : Cursor) : Cursor :=
  match c.rest with
  | '#' :: _ => c.skipWhile isPlain
  | _ => c

/-- The end of a line: blanks, a comment, a newline or the end of the text. -/
def endLine (c : Cursor) : Except TomlError Cursor :=
  let c := skipComment (skipSpace c)
  if c.atEnd then .ok c
  else
    match newline? c with
    | some c => .ok c
    | none => .error (refused c none ["newline", Misfit.inTicks "#"])

/-- Blanks, comments and newlines, as they may stand between the items of an array. -/
def skipLines : Nat → Cursor → Cursor
  | 0, c => c
  | n + 1, c =>
      let c := skipComment (skipSpace c)
      match newline? c with
      | some c => skipLines n c
      | none => c

def isKeyChar (c : Char) : Bool :=
  Text.isLetter c || Text.isDigit c || c == '_' || c == '-'

/-- A scalar value of `width` hexadecimal digits. -/
def codePoint (width : Nat) (c : Cursor) : Except TomlError (Char × Cursor) :=
  let digits := c.rest.take width
  match if digits.length = width then Hex.toNat? digits else none with
  | some n =>
      if n.isValidChar then .ok (Char.ofNat n, c.advance width)
      else .error { cause := some .outOfRange, span := c.nextSpan }
  | none =>
      .error (refused (c.skipWhile fun d => (Hex.value? d).isSome)
        (some ("unicode " ++ toString width ++ "-digit hex code")) [])

def simpleEscape? : Char → Option Char
  | 'b' => some '\x08'
  | 't' => some '\t'
  | 'n' => some '\n'
  | 'f' => some '\x0c'
  | 'r' => some '\r'
  | '"' => some '"'
  | '\\' => some '\\'
  | _ => none

def escapeNames : List String :=
  ["b", "f", "n", "r", "t", "u", "U", "\\", "\""].map Misfit.inTicks

/-- One escape, its backslash read already. -/
def escape (c : Cursor) : Except TomlError (Char × Cursor) :=
  let after := c.advance 1
  match c.rest with
  | 'u' :: _ => codePoint 4 after
  | 'U' :: _ => codePoint 8 after
  | e :: _ =>
      match simpleEscape? e with
      | some d => .ok (d, after)
      | none => .error (refused after (some "escape sequence") escapeNames)
  | [] => .error (refused c none [])

/-- A string on one line, its opening quote read already. -/
def basicBody : Nat → Text → Cursor → Except TomlError (String × Cursor)
  | 0, _, c => .error (refused c (some "basic string") [])
  | n + 1, acc, c =>
      match c.rest with
      | '"' :: _ => .ok (String.ofList acc.reverse, c.advance 1)
      | '\\' :: _ => do
          let (d, c) ← escape (c.advance 1)
          basicBody n (d :: acc) c
      | d :: _ =>
          if isPlain d then basicBody n (d :: acc) (c.advance 1)
          else .error (refused c (some "basic string") [])
      | [] => .error (refused c (some "basic string") [])

def literalBody (c : Cursor) : Except TomlError (String × Cursor) :=
  let run := c.rest.takeWhile fun d => isPlain d && d != '\''
  let after := c.advance run.length
  match after.rest with
  | '\'' :: _ => .ok (String.ofList run, after.advance 1)
  | _ => .error (refused after (some "literal string") [])

/-- The rest of a long string: up to two quotes may stand before the closing three. -/
def closeLong? (quote : Char) (c : Cursor) : Option (Text × Cursor) :=
  let quotes := c.rest.takeWhile (· == quote)
  if 3 ≤ quotes.length ∧ quotes.length ≤ 5 then
    some (List.replicate (quotes.length - 3) quote, c.advance quotes.length)
  else none

def longBody (label : String) (quote : Char) (escapes : Bool) :
    Nat → Text → Cursor → Except TomlError (String × Cursor)
  | 0, _, c => .error (refused c (some label) [])
  | n + 1, acc, c =>
      match closeLong? quote c, c.rest with
      | some (more, after), _ => .ok (String.ofList (acc.reverse ++ more), after)
      | none, [] => .error (refused c (some label) [])
      | none, d :: _ =>
          if d == '\\' && escapes then
            let after := c.advance 1
            match newline? (skipSpace after) with
            | some after =>
                longBody label quote escapes n acc
                  (after.skipWhile fun e => isSpace e || e == '\n' || e == '\r')
            | none => do
                let (e, after) ← escape after
                longBody label quote escapes n (e :: acc) after
          else
            match newline? c with
            | some after => longBody label quote escapes n ('\n' :: acc) after
            | none =>
                if isPlain d then longBody label quote escapes n (d :: acc) (c.advance 1)
                else .error (refused c (some label) [])

def afterNewline (c : Cursor) : Cursor :=
  (newline? c).getD c

/-- A string whose first quote follows. -/
def string (c : Cursor) : Except TomlError (String × Cursor) :=
  let fuel := c.rest.length
  match c.rest with
  | '"' :: '"' :: '"' :: _ =>
      longBody "multiline basic string" '"' true fuel [] (afterNewline (c.advance 3))
  | '\'' :: '\'' :: '\'' :: _ =>
      longBody "multiline literal string" '\'' false fuel [] (afterNewline (c.advance 3))
  | '"' :: _ => basicBody fuel [] (c.advance 1)
  | _ => literalBody (c.advance 1)

def startsKey (c : Cursor) : Bool :=
  c.rest.head?.any fun d => d == '"' || d == '\'' || isKeyChar d

/-- One part of a key. -/
def simpleKey (c : Cursor) : Except TomlError (TomlKey × Cursor) :=
  let placed (r : String × Cursor) : TomlKey × Cursor := (⟨r.1, ⟨c.offset, r.2.offset⟩⟩, r.2)
  match c.rest with
  | '"' :: _ => (basicBody c.rest.length [] (c.advance 1)).map placed
  | '\'' :: _ => (literalBody (c.advance 1)).map placed
  | _ =>
      let run := c.rest.takeWhile isKeyChar
      if run.isEmpty then .error (refused c (some "key") [])
      else .ok (placed (String.ofList run, c.advance run.length))

/-- A dotted key, and the cursor behind it and the blanks that follow. -/
def key : Nat → Cursor → Except TomlError (List TomlKey × Cursor)
  | 0, c => .error (refused c (some "key") [])
  | n + 1, c => do
      let (first, c) ← simpleKey (skipSpace c)
      let c := skipSpace c
      if c.rest.head? == some '.' && startsKey (skipSpace (c.advance 1)) then
        let (more, c) ← key n (c.advance 1)
        pure (first :: more, c)
      else pure ([first], c)

/-- The sign between a key and its value. -/
def equals (c : Cursor) : Except TomlError Cursor :=
  if c.rest.head? == some '=' then .ok (c.advance 1)
  else .error (refused c none [Misfit.inTicks ".", Misfit.inTicks "="])

/-- Digits with single underscores between them. -/
def digitRun? (isDigit : Char → Bool) (cs : Text) : Option (Text × Text) :=
  let run := cs.takeWhile fun c => isDigit c || c == '_'
  let doubled := (run.zip (run.drop 1)).any fun (a, b) => a == '_' && b == '_'
  if run.isEmpty || doubled || run.head? == some '_' || run.getLast? == some '_' then none
  else some (run.filter (· != '_'), cs.drop run.length)

def radixInt? (cs : Text) : Option ((Span → Toml) × Text) := do
  let (radix, rest) ← (match cs with
    | '0' :: 'x' :: rest => some (16, rest)
    | '0' :: 'o' :: rest => some (8, rest)
    | '0' :: 'b' :: rest => some (2, rest)
    | _ => none)
  let (ds, rest) ← digitRun? (fun c => ((Hex.value? c).any (· < radix))) rest
  let n := ds.foldl (fun n c => radix * n + (Hex.value? c).getD 0) 0
  pure (int n, rest)

def twoDigits? : Text → Option (Nat × Text)
  | a :: b :: rest =>
      if Text.isDigit a && Text.isDigit b then some (Text.natOfDigits [a, b], rest) else none
  | _ => none

def clock? (cs : Text) : Option Text := do
  let (hour, rest) ← twoDigits? cs
  let rest ← if rest.head? == some ':' then some (rest.drop 1) else none
  let (minute, rest) ← twoDigits? rest
  let rest ← if rest.head? == some ':' then some (rest.drop 1) else none
  let (second, rest) ← twoDigits? rest
  let rest ← (match rest with
    | '.' :: more =>
        let ds := more.takeWhile Text.isDigit
        if ds.isEmpty then none else some (more.drop ds.length)
    | _ => some rest)
  if hour < 24 && minute < 60 && second ≤ 60 then pure rest else none

def zone? (cs : Text) : Option Text :=
  match cs with
  | c :: rest =>
      if c == 'Z' || c == 'z' then some rest
      else if c == '+' || c == '-' then do
        let (hour, rest) ← twoDigits? rest
        let rest ← if rest.head? == some ':' then some (rest.drop 1) else none
        let (minute, rest) ← twoDigits? rest
        if hour < 24 && minute < 60 then pure rest else none
      else none
  | [] => none

/-- A date, a time, or both with an optional zone. -/
def time? (cs : Text) : Option ((Span → Toml) × Text) := do
  let written (rest : Text) : (Span → Toml) × Text :=
    (moment (String.ofList (cs.take (cs.length - rest.length))), rest)
  match clock? cs with
  | some rest => pure (written rest)
  | none =>
      let year := cs.takeWhile Text.isDigit
      let rest := cs.drop year.length
      let rest ← if year.length = 4 && rest.head? == some '-' then some (rest.drop 1) else none
      let (month, rest) ← twoDigits? rest
      let rest ← if rest.head? == some '-' then some (rest.drop 1) else none
      let (day, rest) ← twoDigits? rest
      if month < 1 || 12 < month || day < 1 || 31 < day then none
      else
        match rest with
        | c :: more =>
            if c == 'T' || c == 't' || c == ' ' then
              match clock? more with
              | some after => pure (written ((zone? after).getD after))
              | none => if c == ' ' then pure (written rest) else none
            else pure (written rest)
        | [] => pure (written rest)

def number? (cs : Text) : Option ((Span → Toml) × Text) := do
  let (negative, body) := match cs with
    | '-' :: rest => (true, rest)
    | '+' :: rest => (false, rest)
    | _ => (false, cs)
  let written (rest : Text) : (Span → Toml) × Text :=
    (decimal (String.ofList (cs.take (cs.length - rest.length))), rest)
  match body with
  | 'i' :: 'n' :: 'f' :: rest => pure (written rest)
  | 'n' :: 'a' :: 'n' :: rest => pure (written rest)
  | _ =>
      let (whole, rest) ← digitRun? Text.isDigit body
      if whole.length > 1 && whole.head? == some '0' then none
      else
        let (point, rest) ← (match rest with
          | '.' :: more => (digitRun? Text.isDigit more).map fun (_, r) => (true, r)
          | _ => some (false, rest))
        let (exponent, rest) ← (match rest with
          | e :: more =>
              if e == 'e' || e == 'E' then
                let more := match more with
                  | '+' :: m => m
                  | '-' :: m => m
                  | m => m
                (digitRun? Text.isDigit more).map fun (_, r) => (true, r)
              else some (false, rest)
          | [] => some (false, rest))
        if point || exponent then pure (written rest)
        else
          let n : Int := Text.natOfDigits whole
          let n := if negative then -n else n
          pure (int n, rest)

/-- What follows a letter that only a known word begins with. -/
def notAValue (c : Cursor) : TomlError :=
  refused c (some "string") [Misfit.inTicks "\"", "\x60'\x60"]

def number (c : Cursor) : Except TomlError (Toml × Cursor) :=
  match (radixInt? c.rest) <|> (time? c.rest) <|> (number? c.rest) with
  | some (value, rest) =>
      let after := c.moveTo rest
      let value := value ⟨c.offset, after.offset⟩
      match value with
      | int n _ =>
          if -(twoPow 63 : Int) ≤ n && n < twoPow 63 then .ok (value, after)
          else .error { cause := some .outOfRange, span := c.nextSpan }
      | _ => .ok (value, after)
  | none =>
      let after := c.skipWhile fun d => d == '+' || d == '-'
      match c.rest.head? with
      | some '_' => .error (refused c (some "integer") ["leading digit"])
      | some '.' => .error (refused c (some "floating-point number") ["leading digit"])
      | _ => .error (refused after (some "integer") [])

def isNumeric (c : Char) : Bool :=
  Text.isDigit c || c == '+' || c == '-' || c == '_' || c == '.'

/-- The words that are values. -/
def words : List (Text × (Span → Toml)) :=
  [(['t', 'r', 'u', 'e'], bool true), (['f', 'a', 'l', 's', 'e'], bool false),
    (['i', 'n', 'f'], decimal "inf"), (['n', 'a', 'n'], decimal "NaN")]

def word (c : Cursor) : Except TomlError (Toml × Cursor) :=
  match words.find? fun (w, _) => Text.startsWith c.rest w with
  | some (w, value) =>
      let after := c.advance w.length
      .ok (value ⟨c.offset, after.offset⟩, after)
  | none => .error (notAValue c)

/-- Whether what follows may begin a value. -/
def startsValue (c : Cursor) : Bool :=
  c.rest.head?.any fun d =>
    isNumeric d || ['"', '\'', '[', '\x7b', 't', 'f', 'i', 'n'].contains d

def scalar (c : Cursor) : Except TomlError (Toml × Cursor) :=
  match c.rest with
  | [] => .error (refused c none [])
  | d :: _ =>
      if d == '"' || d == '\'' then
        (string c).map fun (s, after) => (str s ⟨c.offset, after.offset⟩, after)
      else if isNumeric d then number c
      else word c

def arrayEnd (c : Cursor) : TomlError :=
  refused c (some "array") [Misfit.inTicks "]"]

def inlineEnd (c : Cursor) : TomlError :=
  refused c (some "inline table") [Misfit.inTicks "\x7d"]

mutual

/-- A value at most `n` brackets deep; `size` bounds the items of one bracket. -/
def value (size : Nat) : Nat → Cursor → Except TomlError (Toml × Cursor)
  | 0, c => .error { cause := some .tooDeep, span := c.nextSpan }
  | n + 1, c =>
      match c.rest with
      | '[' :: _ => items size n c.offset size [] (c.advance 1)
      | '\x7b' :: _ =>
          let after := skipSpace (c.advance 1)
          match after.rest with
          | '\x7d' :: _ =>
              let after := after.advance 1
              .ok (table .inline [] (some ⟨c.offset, after.offset⟩), after)
          | _ =>
              if startsKey after then members size n c.offset size [] after
              else .error (inlineEnd after)
      | _ => scalar c
termination_by n _ => (n, 0)

def items (size n start : Nat) : Nat → List Toml → Cursor → Except TomlError (Toml × Cursor)
  | 0, _, c => .error (arrayEnd c)
  | k + 1, acc, c => do
      let c := skipLines size c
      let closed (c : Cursor) (acc : List Toml) : Except TomlError (Toml × Cursor) :=
        let after := c.advance 1
        .ok (arr acc.reverse ⟨start, after.offset⟩, after)
      match c.rest with
      | ']' :: _ => closed c acc
      | _ =>
          if !startsValue c then .error (arrayEnd c)
          else
            let (item, c) ← value size n c
            let c := skipLines size c
            match c.rest with
            | ',' :: _ => items size n start k (item :: acc) (c.advance 1)
            | ']' :: _ => closed c (item :: acc)
            | _ => .error (arrayEnd c)
termination_by k _ _ => (n, k + 1)

def members (size n start : Nat) : Nat → Entries → Cursor → Except TomlError (Toml × Cursor)
  | 0, _, c => .error (inlineEnd c)
  | k + 1, entries, c => do
      let (keys, after) ← key size c
      let (v, after) ← value size n (skipSpace (← equals after))
      let entries ← (insert v keys entries).mapError (.of · c.nextSpan)
      let after := skipSpace after
      match after.rest with
      | ',' :: _ =>
          let next := skipSpace (after.advance 1)
          if startsKey next then members size n start k entries next
          else .error (inlineEnd after)
      | '\x7d' :: _ =>
          let after := after.advance 1
          .ok (table .inline entries (some ⟨start, after.offset⟩), after)
      | _ => .error (inlineEnd after)
termination_by k _ _ => (n, k + 1)

end

def headerEnd (c : Cursor) (closing : String) : TomlError :=
  refused c none [Misfit.inTicks ".", Misfit.inTicks closing]

/-- A header, up to the end of its line. -/
def header (size : Nat) (c : Cursor) :
    Except TomlError ((Opening × List TomlKey × Span) × Cursor) :=
  let doubled := Text.startsWith c.rest ['[', '[']
  let width := if doubled then 2 else 1
  let closing := if doubled then "]]" else "]"
  let result : Except TomlError ((Opening × List TomlKey × Span) × Cursor) := do
    let (keys, after) ← key size (c.advance width)
    if Text.startsWith after.rest closing.toList then
      let after := after.advance width
      let next ← endLine after
      pure ((if doubled then .repeated else .single, keys, ⟨c.offset, after.offset⟩), next)
    else .error (headerEnd after closing)
  result.mapError (·.within "table header")

/-- The deepest nesting of brackets that is read. -/
def maxDepth : Nat := 128

/-- A key that is given twice in the table of a header. -/
def inTable (path : List TomlKey) : TomlCause → TomlCause
  | .duplicateKey key none => .duplicateKey key (some (path.map (·.name)))
  | cause => cause

/-- Reads line by line; `under` is the table of the last header. -/
def lines (size : Nat) : Nat → List TomlKey → Entries → Cursor → Except TomlError Entries
  | 0, _, root, _ => .ok root
  | n + 1, under, root, c =>
      let c := skipLines size c
      match c.rest with
      | [] => .ok root
      | '[' :: _ => do
          let ((opening, keys, span), next) ← header size c
          let root ← (openTable opening span [] keys root).mapError fun cause =>
            (TomlError.of cause c.nextSpan).within "table header"
          lines size n keys root next
      | _ => do
          let (keys, after) ← key size c
          let (v, after) ← value size maxDepth (skipSpace (← equals after))
          let next ← endLine after
          let root ← (insertUnder keys v under root).mapError fun cause =>
            .of (inTable under cause) c.nextSpan
          lines size n under root next

def parse (s : String) : Except TomlError Entries :=
  let cs := s.toList
  let start := Cursor.ofText cs
  lines (cs.length + 1) (cs.length + 1) [] []
    (if cs.head? == some '\ufeff' then start.advance 1 else start)

end SqlUnits.Toml
