import SqlUnits.Text.Span
/-!
Edits of a text by byte spans. A list of edits never overlaps and is ordered by offset; applying
it from the last edit to the first keeps the spans of the others valid.
-/

namespace SqlUnits

/-- Puts `text` in the place of `span`; an empty span is an insertion. -/
structure Edit where
  span : Span
  text : String
deriving DecidableEq

namespace Edit

def insertion (offset : Nat) (text : String) : Edit :=
  ⟨.point offset, text⟩

def isInsertion (edit : Edit) : Bool :=
  edit.span.isEmpty

/-- Edits whose order of application would matter. -/
def conflictsWith (a b : Edit) : Bool :=
  if a.span.start = b.span.start then true
  else if a.span.start < b.span.start then b.span.start < a.span.stop
  else a.span.start < b.span.stop

end Edit

inductive EditError where
  | overlap (first second : Span)
  | outOfRange (span : Span) (length : Nat)
  | insideCharacter (offset : Nat)
deriving DecidableEq

def EditError.message : EditError → String
  | overlap first second =>
      "edit at " ++ second.describe ++ " overlaps edit at " ++ first.describe
  | outOfRange span length =>
      "edit at " ++ span.describe ++ " is outside the text (" ++ toString length ++ " bytes)"
  | insideCharacter offset =>
      "edit boundary " ++ toString offset ++ " is not on a character boundary"

structure EditList where
  edits : List Edit := []
deriving DecidableEq

namespace EditList

/-- Inserts before the first edit that does not start earlier. -/
def insertSorted (edit : Edit) : List Edit → List Edit
  | [] => [edit]
  | e :: rest =>
      if e.span.start < edit.span.start then e :: insertSorted edit rest else edit :: e :: rest

def add (list : EditList) (edit : Edit) : Except EditError EditList :=
  match list.edits.find? (·.conflictsWith edit) with
  | some existing => .error (.overlap existing.span edit.span)
  | none => .ok ⟨insertSorted edit list.edits⟩

/-- Adds edits up to the first that is refused; returns what was reached, and the refusal. -/
def addAll (list : EditList) : List Edit → EditList × Option EditError
  | [] => (list, none)
  | edit :: rest =>
      match list.add edit with
      | .ok list => list.addAll rest
      | .error e => (list, some e)

def extend (list other : EditList) : Except EditError EditList :=
  match list.addAll other.edits with
  | (list, none) => .ok list
  | (_, some e) => .error e

def checkSpan (source : Text) (span : Span) : Except EditError Unit :=
  if span.start > span.stop || span.stop > Text.byteLength source then
    .error (.outOfRange span (Text.byteLength source))
  else if !Text.isBoundary source span.start then .error (.insideCharacter span.start)
  else if !Text.isBoundary source span.stop then .error (.insideCharacter span.stop)
  else .ok ()

/-- Replaces the bytes of a span; a span that is not in the text leaves it as it is. -/
def replaceSpan (span : Span) (text source : Text) : Text :=
  match Text.splitAtByte? span.start source, Text.splitAtByte? span.stop source with
  | some (before, _), some (_, after) => before ++ text ++ after
  | _, _ => source

def apply (list : EditList) (source : String) : Except EditError String := do
  let text := source.toList
  list.edits.forM fun edit => checkSpan text edit.span
  pure (String.ofList
    (list.edits.foldr (fun edit text => replaceSpan edit.span edit.text.toList text) text))

end EditList

end SqlUnits
