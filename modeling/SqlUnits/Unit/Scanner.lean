import SqlUnits.Query.Block
import SqlUnits.Text.Blank
import SqlUnits.Unit.Syntax
/-!
Reading a source unit. White space and `//` comments may stand between any two tokens; the SQL of
a statement is the text of a brace block.
-/

namespace SqlUnits

/-- Why a text is no unit. -/
inductive ScanProblem where
  | expected (what : String) (found : Option Char)
  | unitTwice
  | rowTwice (name : String)
  | methodTwice (name : String)
  | paramTwice (name : String)
  | unknownItem (word : String)
  | missingUnit
  | unknownRow (name : String)
  | noFields (row : String)
  | needsType (param : String)
  | unknownStatement (word : String)
  | noSql
  | notValueType (word : String)
  | notSample (word : String)
  | invalidHex
  | invalidNumber (text : String)
  | unterminatedString
  | block (error : Query.QueryError)
  | noProgress

def quotedWord (word : String) : String :=
  "\x60" ++ word ++ "\x60"

def ScanProblem.message : ScanProblem → String
  | expected what none => "expected " ++ what ++ ", found end of file"
  | expected what (some c) => "expected " ++ what ++ ", found " ++ quotedWord c.toString
  | unitTwice => "unit is declared twice"
  | rowTwice name => "row type " ++ name ++ " is declared twice"
  | methodTwice name => "method " ++ name ++ " is declared twice"
  | paramTwice name => "parameter " ++ name ++ " is declared twice"
  | unknownItem word =>
      "expected \x60unit\x60, \x60row\x60 or \x60fn\x60, found " ++ quotedWord word
  | missingUnit => "missing \x60unit\x60 declaration"
  | unknownRow name => "unknown row type " ++ name
  | noFields row => "row type " ++ row ++ " declares no fields"
  | needsType param => "parameter " ++ param ++ " needs a type or a sample value"
  | unknownStatement word => "unknown statement kind " ++ quotedWord word
  | noSql => "statement has no SQL text"
  | notValueType word => quotedWord word ++ " is not a value type"
  | notSample word => quotedWord word ++ " is not a sample value"
  | invalidHex => "invalid hex literal"
  | invalidNumber text => "invalid number " ++ quotedWord text
  | unterminatedString => "unterminated string literal"
  | block error => error.message
  | noProgress => "scanner stopped"

/-- A problem with its place, both counts from one. -/
structure ScanError where
  line : Nat
  column : Nat
  problem : ScanProblem

namespace ScanError

def message (e : ScanError) : String :=
  e.problem.message

def display (e : ScanError) : String :=
  toString e.line ++ ":" ++ toString e.column ++ ": " ++ e.message

end ScanError

namespace Scanner

/-- The text that is still to be read, and its offset in the source. -/
structure Cursor where
  offset : Nat
  rest : Text

structure Fault where
  offset : Nat
  problem : ScanProblem

abbrev Scan := StateT Cursor (Except Fault)

def failAt (offset : Nat) (problem : ScanProblem) : Scan α :=
  throw ⟨offset, problem⟩

/-- Skips blanks and comments; inside a comment everything up to the newline. -/
def skipTrivia (inComment : Bool) (offset : Nat) : Text → Cursor
  | [] => ⟨offset, []⟩
  | c :: rest =>
      if inComment then skipTrivia (c != '\n') (offset + c.utf8Size) rest
      else if Text.isBlank c then skipTrivia false (offset + c.utf8Size) rest
      else if c = '/' && rest.head? = some '/' then skipTrivia true (offset + 1) rest
      else ⟨offset, c :: rest⟩

def Cursor.skip (cursor : Cursor) : Cursor :=
  skipTrivia false cursor.offset cursor.rest

/-- The next character that is not trivia, left unread. -/
def peek : Scan (Option Char) := do
  let cursor := (← get).skip
  set cursor
  pure cursor.rest.head?

def unexpected (what : String) : Scan α := do
  let found ← peek
  failAt (← get).offset (.expected what found)

def eat (c : Char) : Scan Bool := do
  match ← peek with
  | some found =>
      if found = c then
        modify fun cursor => ⟨cursor.offset + c.utf8Size, cursor.rest.drop 1⟩
        pure true
      else pure false
  | none => pure false

def expect (c : Char) : Scan Unit := do
  if ← eat c then pure () else unexpected (quotedWord c.toString)

/-- Takes the longest run of characters in a class. -/
def takeRun (p : Char → Bool) : Scan Text := do
  let cursor ← get
  let run := cursor.rest.takeWhile p
  set (Cursor.mk (cursor.offset + Text.byteLength run) (cursor.rest.drop run.length))
  pure run

def ident (what : String) : Scan Ident := do
  let cursor := (← get).skip
  set cursor
  let run := cursor.rest.takeWhile Text.isIdentChar
  if run.isEmpty || run.head?.any Text.isDigit then unexpected what
  else
    let _ ← takeRun Text.isIdentChar
    let stop := cursor.offset + Text.byteLength run
    pure ⟨String.ofList run, ⟨cursor.offset, stop⟩⟩

/-- Items separated by commas, at most `n` of them, through the closing bracket. -/
def itemsUpTo (close : Char) (item : Scan α) : Nat → Scan (List α)
  | 0 => fun cursor => throw ⟨cursor.offset, .noProgress⟩
  | n + 1 => do
      let first ← item
      if ← eat ',' then
        let more ← itemsUpTo close item n
        pure (first :: more)
      else
        expect close
        pure [first]

/-- A possibly empty list whose opening bracket is read already. -/
def list (close : Char) (item : Scan α) : Scan (List α) := do
  if ← eat close then pure []
  else
    let cursor ← get
    itemsUpTo close item (cursor.rest.length + 1)

/-- The content of a quoted text and what follows it; a doubled quote stands for one. -/
def quotedBody? : Text → Option (Text × Text)
  | [] => none
  | '\'' :: '\'' :: rest => (quotedBody? rest).map fun (inside, after) => ('\'' :: inside, after)
  | '\'' :: rest => some ([], rest)
  | c :: rest => (quotedBody? rest).map fun (inside, after) => (c :: inside, after)

def quoted : Scan String := do
  expect '\''
  let cursor ← get
  match quotedBody? cursor.rest with
  | none => failAt (cursor.offset - 1) .unterminatedString
  | some (inside, after) =>
      let used := Text.byteLength cursor.rest - Text.byteLength after
      set (Cursor.mk (cursor.offset + used) after)
      pure (String.ofList inside)

/-- The characters of a number after its first one; a sign continues it after an `e`. -/
def numberRun (previous : Char) : Text → Text
  | [] => []
  | c :: rest =>
      let exponentSign := (c == '+' || c == '-') && (previous == 'e' || previous == 'E')
      if Text.isDigit c || c == '.' || c == 'e' || c == 'E' || exponentSign then
        c :: numberRun c rest
      else if c == 'L' then [c]
      else []

def number : Scan Sample := do
  let cursor ← get
  let run :=
    match cursor.rest with
    | [] => []
    | c :: rest => c :: numberRun c rest
  set (Cursor.mk (cursor.offset + run.length) (cursor.rest.drop run.length))
  match Sample.parseNumber? run with
  | some sample => pure sample
  | none => failAt cursor.offset (.invalidNumber (String.ofList run))

def wordSample (word : Ident) : Scan Sample := do
  let quoteNext := (← get).rest.head? = some '\''
  match word.name with
  | "true" => pure (.bool true)
  | "false" => pure (.bool false)
  | "null" => pure .null
  | "date" => pure (.date (← quoted))
  | "timestamp" => pure (.timestamp (← quoted))
  | other =>
      if (other == "x" || other == "X") && quoteNext then
        let body ← quoted
        match Hex.toBytes? body.toList with
        | some bytes => pure (.bytes bytes)
        | none => failAt word.span.start .invalidHex
      else failAt word.span.start (.notSample other)

def sample : Scan Sample := do
  match ← peek with
  | some '\'' => pure (.text (← quoted))
  | some c =>
      if c == '-' || Text.isDigit c then number
      else
        let word ← ident "a sample value"
        wordSample word
  | none => unexpected "a sample value"

def checkedValueType (word : Ident) : Scan ValueType :=
  if word.name == "meta" || word.name == "_" then
    failAt word.span.start (.notValueType word.name)
  else pure (ValueType.ofName word.name)

def param (lines : LineIndex) : Scan ParamDecl := do
  let name ← ident "a parameter name"
  let type ← if ← eat ':' then some <$> (ident "a type name" >>= checkedValueType) else pure none
  let sample ← if ← eat '=' then some <$> sample else pure none
  if type.isNone && sample.isNone then failAt name.span.start (.needsType name.name)
  else pure ⟨name, lines.line name.span.start, type, sample⟩

def field (lines : LineIndex) : Scan FieldDecl := do
  let name ← ident "a field name"
  expect ':'
  let type ← ident "a field type"
  pure ⟨name.name, FieldType.ofName type.name, lines.line name.span.start⟩

def row (lines : LineIndex) (keyword : Ident) : Scan RowDecl := do
  let name ← ident "a row type name"
  let fields ← if ← eat '(' then some <$> list ')' (field lines) else pure none
  if fields = some [] then failAt name.span.start (.noFields name.name)
  else pure ⟨name, lines.line keyword.span.start, fields⟩

def sqlBlock : Scan SqlText := do
  if (← peek) ≠ some '\x7b' then unexpected "\x60\x7b\x60"
  else
    let cursor ← get
    match Query.blockEnd cursor.offset cursor.rest with
    | .error e => failAt e.offset (.block e)
    | .ok close =>
        match Text.splitAtByte? (close - cursor.offset - 1) (cursor.rest.drop 1) with
        | none => failAt cursor.offset .noProgress
        | some (inside, after) =>
            let lead := Text.byteLength inside - Text.byteLength (Text.trimStart inside)
            set (Cursor.mk (close + 1) (after.drop 1))
            let text := Text.trim inside
            if text.isEmpty then failAt cursor.offset .noSql
            else pure ⟨String.ofList text, cursor.offset + 1 + lead⟩

def target (convention : Convention) : Scan Target := do
  if convention.isRow then pure (.row (← ident "a row type name"))
  else if convention.isSingleColumn then
    let type ← ident "a value type or \x60_\x60"
    if type.name == "_" then pure (.value none type.span)
    else pure (.value (some (← checkedValueType type)) type.span)
  else pure .none

def statement (lines : LineIndex) : Scan StatementDecl := do
  let keyword ← ident "a statement"
  let line := lines.line keyword.span.start
  match Convention.ofKeyword? keyword.name with
  | none => failAt keyword.span.start (.unknownStatement keyword.name)
  | some .proc =>
      let object ← ident "a procedure name"
      expect '('
      let args ← list ')' (ident "an argument name")
      pure ⟨.proc, line, .none, some args, none, some object⟩
  | some .nextval =>
      let object ← ident "a sequence name"
      pure ⟨.nextval, line, .none, none, none, some object⟩
  | some convention =>
      let target ← target convention
      let args ← if ← eat '[' then some <$> list ']' (ident "an argument name") else pure none
      let sql ← sqlBlock
      pure ⟨convention, line, target, args, some sql, none⟩

def statementsUpTo (lines : LineIndex) : Nat → Scan (List StatementDecl)
  | 0 => fun cursor => throw ⟨cursor.offset, .noProgress⟩
  | n + 1 => do
      if ← eat '\x7d' then pure []
      else if (← peek).isNone then unexpected "\x60\x7d\x60"
      else
        let first ← statement lines
        let more ← statementsUpTo lines n
        pure (first :: more)

/-- The first element whose key an earlier element has. -/
def firstRepeated? [BEq κ] (key : α → κ) : List κ → List α → Option α
  | _, [] => none
  | seen, a :: rest =>
      if seen.contains (key a) then some a else firstRepeated? key (key a :: seen) rest

def method (lines : LineIndex) (keyword : Ident) : Scan MethodDecl := do
  let name ← ident "a method name"
  expect '('
  let params ← list ')' (param lines)
  match firstRepeated? (·.name.name) [] params with
  | some again => failAt again.name.span.start (.paramTwice again.name.name)
  | none =>
      expect '\x7b'
      let cursor ← get
      let statements ← statementsUpTo lines (cursor.rest.length + 1)
      pure ⟨name, lines.line keyword.span.start, params, statements⟩

/-- What has been read of a unit. -/
structure Draft where
  name : Option Ident
  rows : List RowDecl
  methods : List MethodDecl

def item (lines : LineIndex) (draft : Draft) : Scan Draft := do
  let keyword ← ident "\x60unit\x60, \x60row\x60 or \x60fn\x60"
  match keyword.name with
  | "unit" =>
      if draft.name.isSome then failAt keyword.span.start .unitTwice
      else pure ⟨some (← ident "a unit name"), draft.rows, draft.methods⟩
  | "row" =>
      let row ← row lines keyword
      if draft.rows.any (·.name.name == row.name.name) then
        failAt row.name.span.start (.rowTwice row.name.name)
      else pure ⟨draft.name, draft.rows ++ [row], draft.methods⟩
  | "fn" =>
      let method ← method lines keyword
      if draft.methods.any (·.name.name == method.name.name) then
        failAt method.name.span.start (.methodTwice method.name.name)
      else pure ⟨draft.name, draft.rows, draft.methods ++ [method]⟩
  | other => failAt keyword.span.start (.unknownItem other)

def itemsFrom (lines : LineIndex) (draft : Draft) : Nat → Scan Draft
  | 0 => fun cursor => throw ⟨cursor.offset, .noProgress⟩
  | n + 1 => do
      if (← peek).isNone then pure draft
      else
        let next ← item lines draft
        itemsFrom lines next n

/-- The first statement target that names no declared row. -/
def undeclaredRow? (draft : Draft) : Option Ident :=
  (draft.methods.flatMap (·.statements)).findSome? fun statement =>
    match statement.target with
    | .row name => if draft.rows.any (·.name.name == name.name) then none else some name
    | _ => none

def unit (lines : LineIndex) : Scan (Ident × Draft) := do
  let cursor ← get
  let draft ← itemsFrom lines ⟨none, [], []⟩ (cursor.rest.length + 1)
  match draft.name with
  | none => failAt 0 .missingUnit
  | some name =>
      match undeclaredRow? draft with
      | some row => failAt row.span.start (.unknownRow row.name)
      | none => pure (name, draft)

end Scanner

def SourceUnit.scan (path source : String) : Except ScanError SourceUnit :=
  let text := source.toList
  let lines := LineIndex.ofText text
  match Scanner.unit lines ⟨0, text⟩ with
  | .error fault => .error ⟨lines.line fault.offset, lines.column fault.offset, fault.problem⟩
  | .ok ((name, draft), _) =>
      .ok ⟨path, source, name, lines.line name.span.start, draft.rows, draft.methods⟩

end SqlUnits
