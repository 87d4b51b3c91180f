import SqlUnits.Number.Natural
/-!
Texts are lists of characters; positions in them count bytes of the UTF-8 form.
-/

namespace SqlUnits

abbrev Text := List Char

namespace Text

def byteLength (cs : Text) : Nat :=
  total (cs.map Char.utf8Size)

@[simp] theorem byteLength_nil : byteLength [] = 0 := rfl

@[simp] theorem byteLength_cons (c : Char) (cs : Text) :
    byteLength (c :: cs) = c.utf8Size + byteLength cs := rfl

@[simp] theorem byteLength_append (cs ds : Text) :
    byteLength (cs ++ ds) = byteLength cs + byteLength ds := by
  simp [byteLength]

/-- Splits after exactly `n` bytes; `none` past the end or inside a character. -/
def splitAtByte? : Nat → Text → Option (Text × Text)
  | 0, cs => some ([], cs)
  | _ + 1, [] => none
  | n + 1, c :: cs =>
      if c.utf8Size ≤ n + 1 then
        (splitAtByte? (n + 1 - c.utf8Size) cs).map fun (before, after) => (c :: before, after)
      else none

def isBoundary (cs : Text) (n : Nat) : Bool :=
  (splitAtByte? n cs).isSome

def joinWith (separator : Text) : List Text → Text
  | [] => []
  | [cs] => cs
  | cs :: ds :: rest => cs ++ separator ++ joinWith separator (ds :: rest)

end Text

/-- The bytes from `start` up to, and not including, `stop`. -/
structure Span where
  start : Nat
  stop : Nat
deriving DecidableEq

namespace Span

def point (offset : Nat) : Span := ⟨offset, offset⟩

def isEmpty (span : Span) : Bool :=
  span.start ≥ span.stop

/-- A span as messages show it. -/
def describe (span : Span) : String :=
  toString span.start ++ ".." ++ toString span.stop

end Span

/-! Lines and columns of byte offsets. A line ends after its newline; both counts start at one. -/

/-- The offset at which each line of a text starts. -/
structure LineIndex where
  starts : List Nat

namespace LineIndex

def startsFrom (offset : Nat) : Text → List Nat
  | [] => []
  | c :: cs =>
      let next := offset + c.utf8Size
      if c = '\n' then next :: startsFrom next cs else startsFrom next cs

def ofText (text : Text) : LineIndex :=
  ⟨0 :: startsFrom 0 text⟩

/-- The starts of the lines up to the one that holds `offset`. -/
def reached (index : LineIndex) (offset : Nat) : List Nat :=
  index.starts.filter (· ≤ offset)

def line (index : LineIndex) (offset : Nat) : Nat :=
  (index.reached offset).length

def column (index : LineIndex) (offset : Nat) : Nat :=
  offset - (index.reached offset).getLastD 0 + 1

end LineIndex

/-! Reading a text from the front. -/

/-- A place in a text that is being read: the bytes before it, and the text behind it. -/
structure Cursor where
  offset : Nat
  rest : Text

namespace Cursor

def ofText (cs : Text) : Cursor := ⟨0, cs⟩

/-- The cursor behind the next `n` characters. -/
def advance (c : Cursor) (n : Nat) : Cursor :=
  ⟨c.offset + Text.byteLength (c.rest.take n), c.rest.drop n⟩

def skipWhile (p : Char → Bool) (c : Cursor) : Cursor :=
  c.advance (c.rest.takeWhile p).length

def atEnd (c : Cursor) : Bool :=
  c.rest.isEmpty

/-- The cursor at a later rest of the same text. -/
def moveTo (c : Cursor) (rest : Text) : Cursor :=
  c.advance (c.rest.length - rest.length)

/-- The bytes of the next character; none at the end. -/
def nextSpan (c : Cursor) : Span :=
  ⟨c.offset, (c.advance 1).offset⟩

end Cursor

end SqlUnits
