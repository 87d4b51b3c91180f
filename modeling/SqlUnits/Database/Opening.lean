import SqlUnits.Database.Connection
/-!
Where connections come from. A database in memory lives and dies with its connection; one in a
file keeps what connections have committed.
-/

namespace SqlUnits

/-- The contents once every open transaction is given up. -/
def Contents.committed (c : Contents) : Database :=
  match c.marks.getLast? with
  | some m => m.before
  | none => c.database

/-- What a connection leaves in its file. -/
def Connection.left (c : Connection) : Database :=
  c.contents.committed

inductive ConnectionSource where
  /-- Every connection starts in the same way, on a database of its own. -/
  | apart (start : Except DriverError Connection)
  /-- Connections share a database; each runs the script as it opens. -/
  | shared (now : Moment) (script : Option String)

namespace ConnectionSource

/-- A connection in memory that has run a script. -/
def memory (now : Moment) (script : Option String) : ConnectionSource :=
  match ({ now } : Connection).executeBatch (script.getD "") with
  | (.ok _, c) => .apart (.ok c)
  | (.error e, _) => .apart (.error e)

/-- Opens a connection where `stored` is kept, which the script may change even if it fails. -/
def connect (source : ConnectionSource) (stored : Database) :
    Except DriverError Connection × Database :=
  match source with
  | apart start => (start, stored)
  | shared now script =>
      let c : Connection := { contents := ⟨stored, []⟩, now }
      match c.executeBatch (script.getD "") with
      | (.ok _, c) => (.ok c, c.left)
      | (.error e, c) => (.error e, c.left)

/-- What is kept once a connection closes. -/
def afterClose (source : ConnectionSource) (stored : Database) (c : Connection) : Database :=
  match source with
  | apart _ => stored
  | shared _ _ => c.left

end ConnectionSource

end SqlUnits
