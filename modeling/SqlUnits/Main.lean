import SqlUnits.Project.Command
import Std.Time.DateTime
/-!
The command line. The files of the working directory become a tree, the command runs over it, and
the texts that it has changed are written. A database in a file lasts for one run.
-/

namespace SqlUnits.Main

/-- The text of a file, unless its bytes are none. -/
def text? (names : List String) : IO (Option String) := do
  let path := names.foldl (· / ·) (← IO.currentDir)
  try some <$> IO.FS.readFile path
  catch _ => pure none

/-- What is below a directory, through a limited number of directories. -/
def nodes : Nat → List String → IO (List (List String × FileNode))
  | 0, _ => pure []
  | depth + 1, names => do
      let path := names.foldl (· / ·) (← IO.currentDir)
      let entries ← path.readDir
      let found ← entries.toList.mapM fun entry => do
        let inner := names ++ [entry.fileName]
        if ← entry.path.isDir then
          pure ((inner, .directory) :: (← nodes depth inner))
        else
          match ← text? inner with
          | some text => pure [(inner, .text text)]
          | none => pure []
      pure found.flatten

def maxDepth : Nat := 64

def tree : IO FileTree := do
  pure { home := (← IO.currentDir).toString, nodes := ← nodes maxDepth [] }

/-- Writes the texts of a tree that are not as they were. -/
def writeChanged (old new : FileTree) : IO Unit := do
  let known := old.texts
  for file in new.texts do
    if !known.contains file then
      let path := (← IO.currentDir) / file.1
      if let some directory := path.parent then IO.FS.createDirAll directory
      IO.FS.writeFile path file.2

def surroundings : IO Surroundings := do
  let nanos := (← Std.Time.Timestamp.now).toNanosecondsSinceUnixEpoch.val
  let time := Timestamp.ofSeconds? (nanos / 1000000000) (nanos % 1000000000).toNat
  pure {
    database := ← IO.getEnv Config.databaseVariable
    timestamp := (time.map Timestamp.writeUniversal).getD ""
    now := ⟨nanos / 1000000⟩ }

end SqlUnits.Main

def main (words : List String) : IO UInt32 := do
  let before ← SqlUnits.Main.tree
  let outcome := SqlUnits.Command.run (← SqlUnits.Main.surroundings) words before
  SqlUnits.Main.writeChanged before outcome.tree
  (← IO.getStderr).putStr outcome.err
  (← IO.getStdout).putStr outcome.out
  pure (UInt32.ofNat outcome.exitCode)
