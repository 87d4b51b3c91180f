import SqlUnits.Text.Quoted
import SqlUnits.Toml.Reader
/-!
Typed values of the entries of a TOML table, and how an error is shown: the line where it is, and
signs under the place.
-/

namespace SqlUnits

namespace Toml

/-- What a value is called in messages. -/
def described : Toml → String
  | str s _ => "string " ++ Text.quoted s
  | int n _ => Misfit.describeInt n
  | bool b _ => Misfit.describeBool b
  | decimal text _ => Misfit.describeDecimal text
  | arr _ _ => "sequence"
  | tables _ _ => "sequence"
  | moment _ _ => "map"
  | table _ _ _ => "map"

end Toml

/-- A key with its value. -/
abbrev TomlEntry := TomlKey × Toml

namespace TomlEntry

def span (e : TomlEntry) : Span :=
  e.2.span?.getD e.1.span

def fail (e : TomlEntry) (cause : TomlCause) : Except TomlError α :=
  .error (.of cause e.span)

def mismatch (e : TomlEntry) (wanted : String) : Except TomlError α :=
  e.fail (.misfit (.wrongType e.2.described wanted))

/-- A text, called `wanted` in messages. -/
def text (wanted : String) (e : TomlEntry) : Except TomlError String :=
  match e.2 with
  | .str s _ => .ok s
  | _ => e.mismatch wanted

def string (e : TomlEntry) : Except TomlError String :=
  e.text "a string"

def path (e : TomlEntry) : Except TomlError String :=
  e.text "path string"

def bool (e : TomlEntry) : Except TomlError Bool :=
  match e.2 with
  | .bool b _ => .ok b
  | _ => e.mismatch "a boolean"

/-- One of a list of names. -/
def named (names : List String) (ofName? : String → Option α) (name : String) (e : TomlEntry) :
    Except TomlError α :=
  match ofName? name with
  | some a => .ok a
  | none => e.fail (.misfit (.unknownVariant name names))

/-- Refuses a value that holds something. -/
def checkEmpty (e : TomlEntry) : Except TomlError Unit :=
  match e.2, e.2.items? with
  | _, some items => if items.isEmpty then .ok () else e.fail (.notEmpty "empty array")
  | .table _ entries _, none =>
      if entries.isEmpty then .ok () else e.fail (.notEmpty "empty table")
  | value, none => e.fail (.notEmpty ("table, found " ++ value.kindName))

/-- One of a list of names: a text, or the only key of a table with nothing behind it. -/
def choice (names : List String) (ofName? : String → Option α) (e : TomlEntry) :
    Except TomlError α :=
  match e.2 with
  | .str s _ => e.named names ofName? s
  | .table _ [inner] _ => do
      let a ← TomlEntry.named names ofName? inner.1.name inner
      TomlEntry.checkEmpty inner
      pure a
  | .table _ [] _ => e.fail (.notOneKey "found 0 elements")
  | .table _ _ _ => e.fail (.notOneKey "more than 1 element")
  | _ => e.fail .notAName

/-- The entries of a table, which is called `wanted` in messages. -/
def entries (wanted : String) (e : TomlEntry) : Except TomlError Toml.Entries :=
  match e.2 with
  | .table _ entries _ => .ok entries
  | _ => e.mismatch wanted

/-- The fields of a record: a table names them, an array gives them in their order. -/
def fields (wanted : String) (names : List String) (e : TomlEntry) :
    Except TomlError Toml.Entries :=
  match e.2.items? with
  | some items =>
      .ok ((names.zip items).map fun (name, item) => (⟨name, item.span?.getD e.span⟩, item))
  | none => e.entries wanted

/-- The error of a record whose first field is missing. -/
def missing (record field : String) (count : Nat) (e : TomlEntry) : Except TomlError α :=
  let misfit : Misfit :=
    if e.2.items?.isSome then .wrongLength 0 (record ++ " with " ++ toString count ++ " elements")
    else .missingField field
  e.fail (.misfit misfit)

end TomlEntry

namespace TomlError

/-- The line and the column of a byte, both from zero; the end of a text counts to its last
line. -/
def place (text : Text) (offset : Nat) : Nat × Nat :=
  let bytes := Text.byteLength text
  let inside := min offset (bytes - 1)
  let (before, _) := (Text.splitAtByte? inside text).getD (text, [])
  let line := (before.reverse.takeWhile (· != '\n')).length
  (before.count '\n', line + (offset - inside))

/-- Lines separated by newlines. -/
def splitLines : Text → Text → List Text
  | line, [] => [line.reverse]
  | line, '\n' :: rest => line.reverse :: splitLines [] rest
  | line, c :: rest => splitLines (c :: line) rest

def spaces (n : Nat) : String :=
  String.ofList (List.replicate n ' ')

/-- The whole message over the text that was read; it ends with a newline. -/
def message (e : TomlError) (text : String) : String :=
  let cs := text.toList
  let (line, column) := place cs e.span.start
  let content := (splitLines [] cs).getD line []
  let number := toString (line + 1)
  let gutter := spaces (number.length + 1) ++ "|"
  let width := min (e.span.stop - e.span.start) (Text.byteLength content - column)
  let signs := String.ofList (List.replicate (max 1 width) '^')
  String.intercalate "\n"
    (["TOML parse error at line " ++ number ++ ", column " ++ toString (column + 1), gutter,
      number ++ " | " ++ String.ofList content, gutter ++ spaces (column + 1) ++ signs] ++
      [String.intercalate "\n" e.lines]) ++ "\n"

end TomlError

end SqlUnits
