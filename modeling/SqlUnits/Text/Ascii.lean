import SqlUnits.Text.Span
/-!
Letters, digits and identifiers of ASCII. Units, placeholders and SQL keywords admit no others.
-/

namespace SqlUnits.Text

def isDigit (c : Char) : Bool :=
  '0' ≤ c && c ≤ '9'

def isLower (c : Char) : Bool :=
  'a' ≤ c && c ≤ 'z'

def isUpper (c : Char) : Bool :=
  'A' ≤ c && c ≤ 'Z'

def isLetter (c : Char) : Bool :=
  isLower c || isUpper c

/-- A character of an identifier; a digit cannot start one. -/
def isIdentChar (c : Char) : Bool :=
  isLetter c || isDigit c || c == '_'

def digitValue (c : Char) : Nat :=
  c.toNat - '0'.toNat

def natOfDigits (cs : Text) : Nat :=
  cs.foldl (fun n c => 10 * n + digitValue c) 0

def lower (c : Char) : Char :=
  if isUpper c then Char.ofNat (c.toNat + 32) else c

def upper (c : Char) : Char :=
  if isLower c then Char.ofNat (c.toNat - 32) else c

def lowerString (s : String) : String :=
  String.ofList (s.toList.map lower)

def upperString (s : String) : String :=
  String.ofList (s.toList.map upper)

/-- Equality up to the case of ASCII letters. -/
def sameLetters (s t : String) : Bool :=
  lowerString s == lowerString t

def startsWith (cs start : Text) : Bool :=
  start.isPrefixOf cs

/-- The part of `cs` before the first occurrence of `part` and the part after it. -/
def splitOnce? (part : Text) : Text → Option (Text × Text)
  | [] => if part.isEmpty then some ([], []) else none
  | c :: cs =>
      if part.isPrefixOf (c :: cs) then some ([], (c :: cs).drop part.length)
      else (splitOnce? part cs).map fun (before, after) => (c :: before, after)

def contains (cs part : Text) : Bool :=
  (splitOnce? part cs).isSome

end SqlUnits.Text
