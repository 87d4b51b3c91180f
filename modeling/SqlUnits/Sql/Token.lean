import SqlUnits.Text.Ascii
/-!
Tokens of the database's SQL. A token keeps the text that begins with it, so that the source of
any run of tokens can be cut out again; blanks and comments separate tokens and are no tokens.
-/

namespace SqlUnits.Sql

inductive TokenKind where
  /-- A keyword or an identifier without quotes. -/
  | word
  | quotedName
  | string
  | blob
  | number
  | variable
  | sign
  | illegal
  | finish
deriving DecidableEq

structure Token where
  kind : TokenKind
  /-- The token as it is written. -/
  text : Text
  /-- The text of a word in capitals; of anything else, the text itself. -/
  key : String
  /-- In bytes. -/
  offset : Nat
  /-- The source from the token on. -/
  source : Text

namespace Token

def isBlank (c : Char) : Bool :=
  c == ' ' || c == '\t' || c == '\n' || c == '\r' || c == '\x0c'

def isNameChar (c : Char) : Bool :=
  Text.isIdentChar c || c == '$' || c.toNat ≥ 0x80

def isHexDigit (c : Char) : Bool :=
  Text.isDigit c || ('a' ≤ c && c ≤ 'f') || ('A' ≤ c && c ≤ 'F')

/-- The length of a quoted text behind its opening quote, closing quote included. -/
def quotedLength? (quote : Char) : Text → Option Nat
  | [] => none
  | [c] => if c = quote then some 1 else none
  | c :: d :: rest =>
      if c = quote then
        if d = quote then (quotedLength? quote rest).map (· + 2) else some 1
      else (quotedLength? quote (d :: rest)).map (· + 1)

/-- The length of a block comment behind its opening mark; an open one takes the rest. -/
def commentLength : Text → Nat
  | '*' :: '/' :: _ => 2
  | _ :: rest => commentLength rest + 1
  | [] => 0

/-- The length of digits, which single underscores may separate. -/
def digitsLength (isDigit : Char → Bool) : Text → Nat
  | c :: rest =>
      if isDigit c then digitsLength isDigit rest + 1
      else
        match c, rest with
        | '_', d :: more => if isDigit d then digitsLength isDigit (d :: more) + 1 else 0
        | _, _ => 0
  | [] => 0

def exponentLength : Text → Nat
  | e :: rest =>
      if e == 'e' || e == 'E' then
        let (sign, more) :=
          match rest with
          | '+' :: m => (1, m)
          | '-' :: m => (1, m)
          | m => (0, m)
        let digits := digitsLength Text.isDigit more
        if more.head?.any Text.isDigit then 1 + sign + digits else 0
      else 0
  | [] => 0

/-- The length of a number; characters of names behind it make it illegal. -/
def numberToken (cs : Text) : TokenKind × Nat :=
  let length :=
    match cs with
    | '0' :: x :: d :: rest =>
        if (x == 'x' || x == 'X') && isHexDigit d then 2 + digitsLength isHexDigit (d :: rest)
        else 0
    | _ => 0
  let length :=
    if length ≠ 0 then length
    else
      let whole := if cs.head?.any Text.isDigit then digitsLength Text.isDigit cs else 0
      let rest := cs.drop whole
      let fraction :=
        match rest with
        | '.' :: more =>
            if more.head?.any Text.isDigit then 1 + digitsLength Text.isDigit more else 1
        | _ => 0
      whole + fraction + exponentLength (rest.drop fraction)
  let tail := ((cs.drop length).takeWhile isNameChar).length
  if tail = 0 then (.number, length) else (.illegal, length + tail)

def quotedToken (kind : TokenKind) (quote : Char) (cs : Text) : TokenKind × Nat :=
  match quotedLength? quote cs with
  | some n => (kind, n + 1)
  | none => (.illegal, cs.length + 1)

def bracketToken (cs : Text) : TokenKind × Nat :=
  let inside := cs.takeWhile (· ≠ ']')
  if inside.length < cs.length then (.quotedName, inside.length + 2)
  else (.illegal, cs.length + 1)

/-- Hexadecimal digits behind the letter and the quote that open a blob. -/
def blobToken (cs : Text) : TokenKind × Nat :=
  let digits := cs.takeWhile isHexDigit
  match cs.drop digits.length with
  | '\'' :: _ => (if digits.length % 2 = 0 then .blob else .illegal, digits.length + 3)
  | rest =>
      let more := (rest.takeWhile (· ≠ '\'')).length
      let closing := if more < rest.length then 1 else 0
      (.illegal, 2 + digits.length + more + closing)

def wordToken (cs : Text) : TokenKind × Nat :=
  (.word, (cs.takeWhile isNameChar).length)

/-- The kind and the length of a variable behind the sign that opens it, after `named` characters
of a name. Pairs of colons may stand in it, and parentheses without blanks at its end. -/
def variableFrom (named : Nat) : Text → TokenKind × Nat
  | ':' :: ':' :: rest =>
      let (kind, n) := variableFrom named rest
      (kind, n + 2)
  | c :: rest =>
      if isNameChar c then
        let (kind, n) := variableFrom (named + 1) rest
        (kind, n + 1)
      else if c = '(' && named > 0 then
        let inside := rest.takeWhile fun d => !isBlank d && d != '\x0b' && d != ')'
        if (rest.drop inside.length).head? == some ')' then (.variable, inside.length + 2)
        else (.illegal, inside.length + 1)
      else (if named = 0 then .illegal else .variable, 0)
  | [] => (if named = 0 then .illegal else .variable, 0)

def variableToken (cs : Text) : TokenKind × Nat :=
  let (kind, n) := variableFrom 0 cs
  (kind, n + 1)

/-- The kind and the length of the token at the head of a text that is not empty, and is neither
a blank nor the start of a comment. -/
def scanHead : Text → TokenKind × Nat
  | '-' :: '>' :: '>' :: _ => (.sign, 3)
  | '-' :: '>' :: _ => (.sign, 2)
  | '=' :: '=' :: _ => (.sign, 2)
  | '<' :: '=' :: _ => (.sign, 2)
  | '<' :: '>' :: _ => (.sign, 2)
  | '<' :: '<' :: _ => (.sign, 2)
  | '>' :: '=' :: _ => (.sign, 2)
  | '>' :: '>' :: _ => (.sign, 2)
  | '!' :: '=' :: _ => (.sign, 2)
  | '|' :: '|' :: _ => (.sign, 2)
  | '\'' :: rest => quotedToken .string '\'' rest
  | '"' :: rest => quotedToken .quotedName '"' rest
  | '\x60' :: rest => quotedToken .quotedName '\x60' rest
  | '[' :: rest => bracketToken rest
  | 'x' :: '\'' :: rest => blobToken rest
  | 'X' :: '\'' :: rest => blobToken rest
  | '?' :: rest => (.variable, (rest.takeWhile Text.isDigit).length + 1)
  | ':' :: rest => variableToken rest
  | '@' :: rest => variableToken rest
  | '$' :: rest => variableToken rest
  | '#' :: rest => variableToken rest
  | '.' :: rest =>
      if rest.head?.any Text.isDigit then numberToken ('.' :: rest) else (.sign, 1)
  | c :: rest =>
      if Text.isDigit c then numberToken (c :: rest)
      else if isNameChar c then wordToken (c :: rest)
      else if "-=<>|()[];,+*/%&~".toList.contains c then (.sign, 1)
      else (.illegal, 1)
  | [] => (.finish, 0)

/-- How many characters at the head of a text separate tokens. -/
def gapLength : Text → Nat
  | '-' :: '-' :: rest => 2 + (rest.takeWhile (· ≠ '\n')).length
  | '/' :: '*' :: c :: rest => 2 + commentLength (c :: rest)
  | c :: _ => if isBlank c then 1 else 0
  | [] => 0

def make (kind : TokenKind) (length offset : Nat) (source : Text) : Token :=
  let text := source.take length
  let written := String.ofList text
  { kind, text, offset, source,
    key := if kind = .word then Text.upperString written else written }

/-- The tokens of a text that begins at a byte offset. The last one marks the end. -/
def scan : Nat → Nat → Text → List Token
  | 0, offset, source => [make .finish 0 offset source]
  | fuel + 1, offset, source =>
      let gap := gapLength source
      if gap ≠ 0 then
        scan fuel (offset + Text.byteLength (source.take gap)) (source.drop gap)
      else
        let (kind, length) := scanHead source
        if kind = .finish then [make .finish 0 offset source]
        else
          make kind length offset source ::
            scan fuel (offset + Text.byteLength (source.take length)) (source.drop length)

/-- The tokens of a text. A zero character ends it. -/
def ofText (text : Text) : List Token :=
  let text := text.takeWhile (· ≠ '\x00')
  scan text.length 0 text

end Token

end SqlUnits.Sql
