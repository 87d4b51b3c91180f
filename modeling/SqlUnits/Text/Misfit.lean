/-!
How a value of a document fails to be what is read from it.
-/

namespace SqlUnits

inductive Misfit where
  /-- A value of another kind than the wanted one. -/
  | wrongType (found wanted : String)
  | wrongValue (found wanted : String)
  | wrongLength (length : Nat) (wanted : String)
  | missingField (name : String)
  | duplicateField (name : String)
  | unknownVariant (name : String) (known : List String)
deriving DecidableEq

namespace Misfit

def inTicks (s : String) : String :=
  "\x60" ++ s ++ "\x60"

/-- The choices that a message lists. -/
def choices : List String → String
  | [] => "there are no variants"
  | [a] => "expected " ++ inTicks a
  | [a, b] => "expected " ++ inTicks a ++ " or " ++ inTicks b
  | names => "expected one of " ++ String.intercalate ", " (names.map inTicks)

def message : Misfit → String
  | wrongType found wanted => "invalid type: " ++ found ++ ", expected " ++ wanted
  | wrongValue found wanted => "invalid value: " ++ found ++ ", expected " ++ wanted
  | wrongLength length wanted =>
      "invalid length " ++ toString length ++ ", expected " ++ wanted
  | missingField name => "missing field " ++ inTicks name
  | duplicateField name => "duplicate field " ++ inTicks name
  | unknownVariant name known => "unknown variant " ++ inTicks name ++ ", " ++ choices known

/-- What a truth value is called in messages. -/
def describeBool (b : Bool) : String :=
  "boolean " ++ inTicks (if b then "true" else "false")

def describeInt (n : Int) : String :=
  "integer " ++ inTicks (toString n)

def describeDecimal (text : String) : String :=
  "floating point " ++ inTicks text

end Misfit

end SqlUnits
