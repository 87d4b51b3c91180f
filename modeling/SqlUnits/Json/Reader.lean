import SqlUnits.Json.Tree
import SqlUnits.Text.Span
/-!
Reading JSON text. The whole text must be one value; nesting is limited, and an escaped surrogate
must stand in a pair.
-/

namespace SqlUnits

namespace Cursor

/-- A problem that shows at the cursor. -/
def fault (c : Cursor) (p : JsonProblem) : JsonError :=
  ⟨p, c.offset⟩

/-- A problem of the character that follows. -/
def faultAhead (c : Cursor) (p : JsonProblem) : JsonError :=
  ⟨p, if c.rest.isEmpty then c.offset else c.offset + 1⟩

/-- A problem of the character that follows, or the end of the text inside a part. -/
def unexpected (c : Cursor) (part : String) (p : JsonProblem) : JsonError :=
  c.faultAhead (if c.rest.isEmpty then .endOfText part else p)

end Cursor

namespace Json

def isSpace (c : Char) : Bool :=
  c == ' ' || c == '\n' || c == '\t' || c == '\r'

def skipSpace (c : Cursor) : Cursor :=
  c.skipWhile isSpace

/-- Four hexadecimal digits. -/
def unit (c : Cursor) : Except JsonError (Nat × Cursor) :=
  let digits := c.rest.take 4
  let after := c.advance 4
  if digits.length < 4 then .error (after.fault (.endOfText "a string"))
  else
    match Hex.toNat? digits with
    | some n => .ok (n, after)
    | none => .error (after.fault .badEscape)

/-- What follows the letter `u` of an escape: one unit, or a pair of surrogates. -/
def unicodeEscape (c : Cursor) : Except JsonError (Char × Cursor) := do
  let (high, c) ← unit c
  if 0xDC00 ≤ high && high < 0xE000 then .error (c.fault .loneSurrogate)
  else if 0xD800 ≤ high && high < 0xDC00 then
    match c.rest with
    | '\\' :: 'u' :: _ =>
        let (low, c) ← unit (c.advance 2)
        if 0xDC00 ≤ low && low < 0xE000 then
          .ok (Char.ofNat (0x10000 + (high - 0xD800) * 0x400 + (low - 0xDC00)), c)
        else .error (c.fault .loneSurrogate)
    | [] => .error (c.fault (.endOfText "a string"))
    | '\\' :: _ => .error ((c.advance 2).fault .brokenPair)
    | _ => .error ((c.advance 1).fault .brokenPair)
  else .ok (Char.ofNat high, c)

def simpleEscape? : Char → Option Char
  | '"' => some '"'
  | '\\' => some '\\'
  | '/' => some '/'
  | 'b' => some '\x08'
  | 'f' => some '\x0c'
  | 'n' => some '\n'
  | 'r' => some '\r'
  | 't' => some '\t'
  | _ => none

/-- What follows a backslash. -/
def escape (c : Cursor) : Except JsonError (Char × Cursor) :=
  match c.rest with
  | [] => .error (c.fault (.endOfText "a string"))
  | 'u' :: _ => unicodeEscape (c.advance 1)
  | e :: _ =>
      match simpleEscape? e with
      | some d => .ok (d, c.advance 1)
      | none => .error ((c.advance 1).fault .badEscape)

/-- The content of a string and the cursor behind its closing quote. -/
def stringBody : Nat → Text → Cursor → Except JsonError (String × Cursor)
  | 0, _, c => .error (c.fault (.endOfText "a string"))
  | n + 1, acc, c =>
      match c.rest with
      | [] => .error (c.fault (.endOfText "a string"))
      | '"' :: _ => .ok (String.ofList acc.reverse, c.advance 1)
      | '\\' :: _ => do
          let (d, c) ← escape (c.advance 1)
          stringBody n (d :: acc) c
      | d :: _ =>
          if d.toNat < 32 then .error ((c.advance 1).fault .controlCharacter)
          else stringBody n (d :: acc) (c.advance 1)

/-- A string whose opening quote follows. -/
def string (c : Cursor) : Except JsonError (String × Cursor) :=
  stringBody c.rest.length [] (c.advance 1)

/-- The cursor behind a string whose escapes are well formed, whatever they stand for. -/
def skipBody? : Nat → Cursor → Option Cursor
  | 0, _ => none
  | n + 1, c =>
      match c.rest with
      | [] => none
      | '"' :: _ => some (c.advance 1)
      | '\\' :: 'u' :: _ =>
          match unit (c.advance 2) with
          | .ok (_, c) => skipBody? n c
          | .error _ => none
      | '\\' :: e :: _ => if (simpleEscape? e).isSome then skipBody? n (c.advance 2) else none
      | d :: _ => if d.toNat < 32 then none else skipBody? n (c.advance 1)

def skipString? (c : Cursor) : Option Cursor :=
  match c.rest with
  | '"' :: rest => skipBody? rest.length (c.advance 1)
  | _ => none

/-- Digits, at least one. -/
def digits (c : Cursor) : Except JsonError (Text × Cursor) :=
  let ds := c.rest.takeWhile Text.isDigit
  if ds.isEmpty then .error (c.unexpected "a value" .badNumber)
  else .ok (ds, c.advance ds.length)

/-- The part of a number behind its point, with the point. -/
def fraction (c : Cursor) : Except JsonError (Text × Cursor) :=
  match c.rest with
  | '.' :: _ => (digits (c.advance 1)).map fun (ds, c) => ('.' :: ds, c)
  | _ => .ok ([], c)

def exponent (c : Cursor) : Except JsonError (Text × Cursor) :=
  match c.rest with
  | e :: rest =>
      if e == 'e' || e == 'E' then
        let sign := (rest.takeWhile fun c => c == '+' || c == '-').take 1
        (digits (c.advance (1 + sign.length))).map fun (ds, c) => (e :: sign ++ ds, c)
      else .ok ([], c)
  | [] => .ok ([], c)

/-- A number: no needless zeros; an integer unless it has a fraction, an exponent or is `-0`. -/
def number (c : Cursor) : Except JsonError (Json × Cursor) := do
  let negative := c.rest.head? == some '-'
  let (whole, c) ← digits (if negative then c.advance 1 else c)
  if whole.length > 1 && whole.head? == some '0' then
    .error ⟨.badNumber, c.offset - whole.length + 2⟩
  else
    let (point, c) ← fraction c
    let (power, c) ← exponent c
    if point.isEmpty && power.isEmpty && !(negative && whole == ['0']) then
      let n := Text.natOfDigits whole
      pure (int (if negative then -(n : Int) else n), c)
    else
      let sign := if negative then ['-'] else []
      pure (decimal (String.ofList (sign ++ whole ++ point ++ power)), c)

/-- A word of known letters, of which the first has been seen. -/
def literal (word : Text) (value : Json) (c : Cursor) : Except JsonError (Json × Cursor) :=
  let same := ((word.zip c.rest).takeWhile fun (a, b) => a == b).length
  if same = word.length then .ok (value, c.advance same)
  else
    let c := c.advance same
    if c.rest.isEmpty then .error (c.fault (.endOfText "a value"))
    else .error ((c.advance 1).fault (.expected "ident"))

def scalar (c : Cursor) : Except JsonError (Json × Cursor) :=
  match c.rest with
  | '"' :: _ => (string c).map fun (s, c) => (str s, c)
  | 'n' :: _ => literal ['n', 'u', 'l', 'l'] null c
  | 't' :: _ => literal ['t', 'r', 'u', 'e'] (bool true) c
  | 'f' :: _ => literal ['f', 'a', 'l', 's', 'e'] (bool false) c
  | d :: _ =>
      if d == '-' || Text.isDigit d then number c
      else .error (c.faultAhead (.expected "value"))
  | [] => .error (c.fault (.endOfText "a value"))

/-- A key and the colon behind it. -/
def key (c : Cursor) : Except JsonError (JsonKey × Cursor) :=
  match c.rest with
  | '"' :: _ => do
      let (name, c) ← string c
      let c := skipSpace c
      match c.rest with
      | ':' :: _ => pure (⟨name, c.offset⟩, c.advance 1)
      | _ => .error (c.unexpected "an object" (.expected (Misfit.inTicks ":")))
  | _ => .error (c.unexpected "a value" .keyNotString)

/-- A value, and the text behind it unless it is broken. -/
abbrev Grown := JsonTree × Text

def listEnd : String :=
  Misfit.inTicks "," ++ " or " ++ Misfit.inTicks "]"

def objectEnd : String :=
  Misfit.inTicks "," ++ " or " ++ Misfit.inTicks "\x7d"

mutual

/-- Reads a value at most `n` brackets deep; `size` bounds the items of one list. -/
def grow (size : Nat) : Nat → Cursor → Grown
  | 0, c => (.broken (c.fault .tooDeep), [])
  | n + 1, c =>
      let c := skipSpace c
      let inner := skipSpace (c.advance 1)
      match c.rest with
      | '[' :: _ =>
          if n = 0 then (.broken (c.faultAhead .tooDeep), [])
          else
            match inner.rest with
            | ']' :: rest => (.arr c.offset [] (.ok (inner.offset + 1)), rest)
            | [] => (.arr c.offset [] (.error (inner.fault (.endOfText "a list"))), [])
            | _ => items size n c.offset size [] inner
      | '\x7b' :: _ =>
          if n = 0 then (.broken (c.faultAhead .tooDeep), [])
          else
            match inner.rest with
            | '\x7d' :: rest => (.obj c.offset [] (.ok (inner.offset + 1)), rest)
            | [] => (.obj c.offset [] (.error (inner.fault (.endOfText "an object"))), [])
            | _ => members size n c.offset size [] inner
      | _ =>
          match scalar c with
          | .ok (value, after) => (.leaf value c.offset after.offset, after.rest)
          | .error e =>
              match skipString? c with
              | some after => (.marred e c.offset after.offset, after.rest)
              | none => (.broken e, [])
termination_by n _ => (n, 0)

def items (size n start : Nat) : Nat → List JsonTree → Cursor → Grown
  | 0, acc, c => (.arr start acc.reverse (.error (c.fault .tooDeep)), [])
  | k + 1, acc, c =>
      let (item, rest) := grow size n c
      let acc := item :: acc
      match item.close with
      | .error e => (.arr start acc.reverse (.error e), [])
      | .ok stop =>
          let c := skipSpace ⟨stop, rest⟩
          match c.rest with
          | ']' :: rest => (.arr start acc.reverse (.ok (c.offset + 1)), rest)
          | ',' :: _ =>
              let c := skipSpace (c.advance 1)
              match c.rest with
              | ']' :: _ => (.arr start acc.reverse (.error (c.faultAhead .trailingComma)), [])
              | _ => items size n start k acc c
          | _ =>
              (.arr start acc.reverse (.error (c.unexpected "a list" (.expected listEnd))), [])
termination_by k _ _ => (n, k + 1)

def members (size n start : Nat) :
    Nat → List (JsonKey × JsonTree) → Cursor → Grown
  | 0, acc, c => (.obj start acc.reverse (.error (c.fault .tooDeep)), [])
  | k + 1, acc, c =>
      match key c with
      | .error e => (.obj start acc.reverse (.error e), [])
      | .ok (name, c) =>
          let (value, rest) := grow size n c
          let acc := (name, value) :: acc
          match value.close with
          | .error e => (.obj start acc.reverse (.error e), [])
          | .ok stop =>
              let c := skipSpace ⟨stop, rest⟩
              match c.rest with
              | '\x7d' :: rest => (.obj start acc.reverse (.ok (c.offset + 1)), rest)
              | ',' :: _ =>
                  let c := skipSpace (c.advance 1)
                  match c.rest with
                  | '\x7d' :: _ =>
                      (.obj start acc.reverse (.error (c.faultAhead .trailingComma)), [])
                  | _ => members size n start k acc c
              | _ =>
                  (.obj start acc.reverse
                    (.error (c.unexpected "an object" (.expected objectEnd))), [])
termination_by k _ _ => (n, k + 1)

end

/-- The deepest nesting that is read. -/
def maxDepth : Nat := 128

end Json

namespace JsonTree

/-- The first value of a text, and the text behind it. -/
def ofText (cs : Text) : Json.Grown :=
  Json.grow (cs.length + 1) Json.maxDepth (.ofText cs)

/-- Nothing but blanks may follow a whole value. -/
def ending (grown : Json.Grown) : Except JsonError Unit := do
  let stop ← grown.1.close
  let c := Json.skipSpace ⟨stop, grown.2⟩
  if c.rest.isEmpty then pure () else .error (c.faultAhead .trailingCharacters)

end JsonTree

def Json.parse? (s : String) : Option Json :=
  let grown := JsonTree.ofText s.toList
  match JsonTree.ending grown with
  | .ok _ => grown.1.toJson?
  | .error _ => none

end SqlUnits
