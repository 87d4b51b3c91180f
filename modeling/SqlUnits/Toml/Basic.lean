import SqlUnits.Text.Misfit
import SqlUnits.Text.Span
/-!
TOML documents. A table remembers how it was written, since that decides what may extend it, and
every value remembers where, so that what does not fit can be shown.
-/

namespace SqlUnits

inductive TableKind where
  /-- Named by the header of a deeper table only. -/
  | implied
  /-- Under a header of its own. -/
  | header
  /-- Made by a dotted key. -/
  | dotted
  /-- Between braces, complete as written. -/
  | inline
deriving DecidableEq

structure TomlKey where
  name : String
  span : Span
deriving DecidableEq

inductive Toml where
  | str (s : String) (span : Span)
  | int (n : Int) (span : Span)
  | bool (b : Bool) (span : Span)
  /-- A number that is no integer, as written. -/
  | decimal (text : String) (span : Span)
  /-- A date, a time or both. -/
  | moment (text : String) (span : Span)
  | arr (items : List Toml) (span : Span)
  /-- A table whose place is that of its key if it has none of its own. -/
  | table (kind : TableKind) (entries : List (TomlKey × Toml)) (span : Option Span)
  /-- Tables under one repeated header, the last one first. -/
  | tables (reversed : List (List (TomlKey × Toml))) (span : Span)

inductive TomlCause where
  /-- A key that is given twice in a table; no names stand for the whole document. -/
  | duplicateKey (key : String) (table : Option (List String))
  /-- A dotted key through something that is no table. -/
  | extendsValue (path : List String) (kind : String)
  | outOfRange
  | tooDeep
  | notAName
  /-- A table in place of a name, without exactly one key. -/
  | notOneKey (found : String)
  /-- The value behind such a key, when it is no empty table. -/
  | notEmpty (wanted : String)
  | misfit (m : Misfit)
deriving DecidableEq

def TomlCause.message : TomlCause → String
  | duplicateKey key none => "duplicate key " ++ Misfit.inTicks key
  | duplicateKey key (some []) =>
      "duplicate key " ++ Misfit.inTicks key ++ " in document root"
  | duplicateKey key (some path) =>
      "duplicate key " ++ Misfit.inTicks key ++ " in table " ++
        Misfit.inTicks (String.intercalate "." path)
  | extendsValue path kind =>
      "dotted key " ++ Misfit.inTicks (String.intercalate "." path) ++
        " attempted to extend non-table type (" ++ kind ++ ")"
  | outOfRange => "number too large to fit in target type"
  | tooDeep => "recursion limit exceeded"
  | notAName => "wanted string or table"
  | notOneKey found => "wanted exactly 1 element, " ++ found
  | notEmpty wanted => "expected " ++ wanted
  | misfit m => m.message

/-- Why a document cannot be read, and where. -/
structure TomlError where
  /-- The part that is not well formed. -/
  label : Option String := none
  expected : List String := []
  cause : Option TomlCause := none
  span : Span
deriving DecidableEq

namespace TomlError

def lines (e : TomlError) : List String :=
  (e.label.map ("invalid " ++ ·)).toList ++
    (if e.expected.isEmpty then []
      else ["expected " ++ String.intercalate ", " e.expected]) ++
    (e.cause.map TomlCause.message).toList

def of (cause : TomlCause) (span : Span) : TomlError :=
  { cause := some cause, span }

def within (e : TomlError) (label : String) : TomlError :=
  { e with label := e.label <|> some label }

end TomlError

namespace Toml

abbrev Entries := List (TomlKey × Toml)

def span? : Toml → Option Span
  | str _ span => some span
  | int _ span => some span
  | bool _ span => some span
  | decimal _ span => some span
  | moment _ span => some span
  | arr _ span => some span
  | table _ _ span => span
  | tables _ span => some span

/-- The name of a kind of value, for keys that cannot extend it. -/
def kindName : Toml → String
  | str _ _ => "string"
  | int _ _ => "integer"
  | bool _ _ => "boolean"
  | decimal _ _ => "float"
  | moment _ _ => "datetime"
  | arr _ _ => "array"
  | table .inline _ _ => "inline table"
  | table _ _ _ => "table"
  | tables _ _ => "array of tables"

/-- The items of an array, or the tables under a repeated header, in their order. -/
def items? : Toml → Option (List Toml)
  | arr items _ => some items
  | tables reversed span =>
      some (reversed.reverse.map fun entries => table .header entries (some span))
  | _ => none

def find? (entries : Entries) (key : String) : Option Toml :=
  (entries.find? (·.1.name == key)).map (·.2)

/-- Replaces the entry of a key, or adds one at the end. -/
def put (entries : Entries) (key : TomlKey) (value : Toml) : Entries :=
  if entries.any (·.1.name == key.name) then
    entries.map fun (k, v) => if k.name == key.name then (k, value) else (k, v)
  else entries ++ [(key, value)]

/-- Adds a value under a dotted key; a key is given once. -/
def insert (value : Toml) : List TomlKey → Entries → Except TomlCause Entries
  | [], entries => .ok entries
  | [key], entries =>
      if (find? entries key.name).isSome then .error (.duplicateKey key.name none)
      else .ok (put entries key value)
  | key :: rest, entries =>
      match find? entries key.name with
      | none => do
          let inner ← insert value rest []
          pure (put entries key (table .dotted inner none))
      | some (table .dotted inner span) => do
          let inner ← insert value rest inner
          pure (put entries key (table .dotted inner span))
      | some (table .inline _ _) => .error (.extendsValue [key.name] "inline table")
      | some (table _ _ _) => .error (.duplicateKey key.name none)
      | some (tables _ _) => .error (.duplicateKey key.name none)
      | some other => .error (.extendsValue [key.name] other.kindName)

/-- What a header does to the table that it names. -/
inductive Opening where
  | single
  | repeated

/-- Opens the table of a header that stands at `span`; `path` leads to it. -/
def openTable (opening : Opening) (span : Span) (path : List String) :
    List TomlKey → Entries → Except TomlCause Entries
  | [], entries => .ok entries
  | [key], entries =>
      match opening, find? entries key.name with
      | .single, none => .ok (put entries key (table .header [] (some span)))
      | .single, some (table .implied inner _) =>
          .ok (put entries key (table .header inner (some span)))
      | .repeated, none => .ok (put entries key (tables [[]] span))
      | .repeated, some (tables made span) => .ok (put entries key (tables ([] :: made) span))
      | _, some _ => .error (.duplicateKey key.name (some path))
  | key :: rest, entries =>
      let path := path ++ [key.name]
      match find? entries key.name with
      | none => do
          let inner ← openTable opening span path rest []
          pure (put entries key (table .implied inner none))
      | some (table .inline _ _) => .error (.extendsValue path "inline table")
      | some (table kind inner at?) => do
          let inner ← openTable opening span path rest inner
          pure (put entries key (table kind inner at?))
      | some (tables (last :: made) place) => do
          let last ← openTable opening span path rest last
          pure (put entries key (tables (last :: made) place))
      | some other => .error (.extendsValue path other.kindName)

/-- The place of a table through its last value. -/
def through (value : Toml) (place : Option Span) : Option Span := do
  let table ← place
  pure ⟨table.start, max table.stop ((value.span?.map (·.stop)).getD 0)⟩

/-- Adds a value to the table of an opened header. -/
def insertUnder (keys : List TomlKey) (value : Toml) :
    List TomlKey → Entries → Except TomlCause Entries
  | [], entries => insert value keys entries
  | key :: rest, entries =>
      match find? entries key.name with
      | some (table kind inner span) => do
          let inner ← insertUnder keys value rest inner
          let span := if rest.isEmpty then through value span else span
          pure (put entries key (table kind inner span))
      | some (tables (last :: made) span) => do
          let last ← insertUnder keys value rest last
          pure (put entries key (tables (last :: made) span))
      | _ => .ok entries

end Toml

end SqlUnits
