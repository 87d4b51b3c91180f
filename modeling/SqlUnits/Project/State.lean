import SqlUnits.Json.Record
import SqlUnits.Text.Digest
/-!
What is kept between runs: the digest of every source that validated, and where its typed artifact
is. A source whose text still has its digest need not be validated again.
-/

namespace SqlUnits

structure UnitState where
  digest : String
  /-- The path of the typed artifact, relative to the output directory. -/
  typed : String
deriving DecidableEq

/-- Entries in order of their paths. -/
structure RunState where
  units : List (String × UnitState) := []
deriving DecidableEq

namespace RunState

def fileName : String := ".sqlprobe-state.json"

def insertByPath (path : String) (entry : UnitState) :
    List (String × UnitState) → List (String × UnitState)
  | [] => [(path, entry)]
  | (p, e) :: rest =>
      if p == path then (path, entry) :: rest
      else if path < p then (path, entry) :: (p, e) :: rest
      else (p, e) :: insertByPath path entry rest

def forget (state : RunState) (path : String) : RunState :=
  ⟨state.units.filter (·.1 != path)⟩

def record (state : RunState) (path text typed : String) : RunState :=
  ⟨insertByPath path ⟨Digest.ofText text, typed⟩ state.units⟩

/-- The artifact of a source whose text is unchanged since it was recorded. -/
def fresh? (state : RunState) (path text : String) : Option String := do
  let entry ← state.units.lookup path
  if entry.digest == Digest.ofText text then pure entry.typed else none

def toJson (state : RunState) : Json :=
  .obj [("units", .obj (state.units.map fun (path, entry) =>
    (path, .obj [("hash", .str entry.digest), ("typed", .str entry.typed)])))]

def entryOfTree (t : JsonTree) : JsonRead UnitState :=
  t.record "UnitState" ["hash", "typed"] fun m =>
    UnitState.mk <$> m.required "hash" JsonTree.string <*> m.required "typed" JsonTree.string

def ofEntries (entries : List (String × UnitState)) : RunState :=
  ⟨entries.foldl (fun units (path, entry) => insertByPath path entry units) []⟩

def ofTree (t : JsonTree) : JsonRead RunState :=
  t.record "RunState" ["units"] fun m =>
    m.orElse "units" (ofEntries <$> ·.dictionary entryOfTree) {}

/-- Reads a state file; a text that is no state counts as none. -/
def load (text : String) : RunState :=
  match JsonTree.read ofTree text with
  | .ok state => state
  | .error _ => {}

end RunState

end SqlUnits
