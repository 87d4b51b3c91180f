import SqlUnits.Json.Basic
/-!
Places in source files; lines and columns count from one.
-/

namespace SqlUnits

structure Location where
  file : String
  line : Option Nat := none
  column : Option Nat := none
deriving DecidableEq

namespace Location

def atLine (file : String) (line : Nat) : Location :=
  ⟨file, some line, none⟩

def display (l : Location) : String :=
  match l.line, l.column with
  | none, _ => l.file
  | some line, none => l.file ++ ":" ++ toString line
  | some line, some column => l.file ++ ":" ++ toString line ++ ":" ++ toString column

def toJson (l : Location) : Json :=
  .obj [
    ("file", .str l.file),
    ("line", .opt .nat l.line),
    ("column", .opt .nat l.column)]

end Location

end SqlUnits
